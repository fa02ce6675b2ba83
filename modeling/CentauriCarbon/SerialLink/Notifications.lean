import CentauriCarbon.SerialLink.NotifyQueue

/-! # Notifications

The records of the link agree with the go-back-N state that it represents: no ack for a block is
ahead of a response to it, and a response does not release the messages of its own block. So in
every run in which the numbers do not wrap, notifications are exact and ordered.
-/

namespace CentauriCarbon.SerialLink

open List Protocol

/-! ## The invariant -/

/-- The records agree with a go-back-N state. The messages of the blocks before `released` have
been notified and those of the others wait. A response under way is to a block that is not
released, and no ack for that block is ahead of it. -/
structure Accounted (base : UInt64) (before : List ReceivedMessage) (system : NotifyLink)
    (state : GoBackN.State) (arrivals : List Arrival) (waiting : List (Nat × QueueMessage))
    (released : Nat) : Prop where
  invariant : GoBackN.Invariant maxPendingBlocks.toNat state
  represents : Represents base system.link state
  messages : Forall₂ (fun message sent =>
      message = addFrame (blockSequence (base + .ofNat sent.dispatched)) sent.payload ∧
        sent.payload.length ≤ messagePayloadMax)
    system.link.up system.upward
  counts : state.up = system.upward.map Upward.dispatched
  origins : ∀ sent ∈ system.upward, ∀ block, sent.origin = some block →
    sent.dispatched = block + 1 ∧ released ≤ block ∧ sent.payload ≠ []
  acksLast : system.upward.Pairwise fun first second => first.payload = [] →
    ∀ block, second.origin = some block → first.dispatched ≤ block
  blocks : ∀ {index block}, system.link.built[index]? = some block →
    ∃ seq, block = addFrame seq (contents system.placed index)
  sorted : system.placed.Pairwise fun first second => first.1 ≤ second.1
  placed_lt : ∀ placed ∈ system.placed, placed.1 < state.sent
  notifying_eq : notifying system.placed = arrivals.filterMap Arrival.notification? ++ waiting
  notifyQueue : system.link.host.notifyQueue = waiting.map (stamped base)
  produced_lt : ∀ placed ∈ arrivals.filterMap Arrival.notification?, placed.1 < released
  waiting_ge : ∀ placed ∈ waiting, released ≤ placed.1
  acked_le : system.acked ≤ released
  released_le : released ≤ state.accepted
  queue : system.pulled ++ system.link.host.receiveQueue = before ++ arrivals.map Arrival.received
  responses : arrivals.filterMap Arrival.response? = system.delivered
  responsesFirst : arrivals.Pairwise Arrival.MayPrecede

namespace Accounted

variable {base : UInt64} {before : List ReceivedMessage} {system : NotifyLink}
  {state next : GoBackN.State} {arrivals : List Arrival} {waiting : List (Nat × QueueMessage)}
  {released : Nat}

theorem of_synchronised (synchronised : NotifyLink.Synchronised system) :
    Accounted system.link.host.sendSeq system.link.host.receiveQueue system .start [] [] 0 where
  invariant := GoBackN.invariant_start _
  represents := .of_synchronised synchronised.link
  messages := by
    rw [synchronised.link.upEmpty, synchronised.noneUpward]
    exact .nil
  counts := by
    rw [synchronised.noneUpward]
    rfl
  origins := by simp [synchronised.noneUpward]
  acksLast := by simp [synchronised.noneUpward]
  blocks := by simp [synchronised.link.noneBuilt]
  sorted := by simp [synchronised.nonePlaced]
  placed_lt := by simp [synchronised.nonePlaced]
  notifying_eq := by simp [synchronised.nonePlaced, notifying]
  notifyQueue := synchronised.noneWaiting
  produced_lt := by simp
  waiting_ge := by simp
  acked_le := by simp [synchronised.noneAcked]
  released_le := zero_le
  queue := by simp [synchronised.nonePulled]
  responses := synchronised.noneDelivered.symm
  responsesFirst := .nil

section

variable (accounted : Accounted base before system state arrivals waiting released)
include accounted

theorem notifying_sorted : (arrivals.filterMap Arrival.notification? ++ waiting).Pairwise
      fun first second => first.1 ≤ second.1 := by
  have sorted := accounted.sorted.filter (fun placed => placed.2.notifyId ≠ 0)
  change (notifying system.placed).Pairwise _ at sorted
  rwa [accounted.notifying_eq] at sorted

theorem isExact : system.Exact before arrivals where
  __ := accounted
  inOrder := ⟨waiting, accounted.notifying_eq.symm⟩
  afterAck := by
    have noneOfWaiting : waiting.filter (fun placed => placed.1 < system.acked) = [] := by
      apply filter_eq_nil_iff.mpr
      intro placed member
      have notBelow := accounted.waiting_ge placed member
      have acked_le := accounted.acked_le
      simp only [decide_eq_true_eq]
      omega
    rw [accounted.notifying_eq, filter_append, noneOfWaiting, append_nil]
    have sortedArrivals := (pairwise_append.mp accounted.notifying_sorted).1
    rcases exists_split sortedArrivals system.acked with ⟨front, back, split, isFront, isBack⟩
    rw [split, filter_append, filter_eq_self.mpr, filter_eq_nil_iff.mpr]
    · exact ⟨back, by rw [append_nil]⟩
    · intro placed member
      have notBelow := isBack placed member
      simp only [decide_eq_true_eq]
      omega
    · intro placed member
      exact decide_eq_true (isFront placed member)
  afterDispatch := by
    intro placed member
    have below := accounted.produced_lt placed member
    have released_le := accounted.released_le
    have accepted_le := accounted.invariant.accepted_le
    rw [accounted.represents.dispatched, length_take, accounted.represents.builtLength]
    omega

theorem keep (invariant : GoBackN.Invariant maxPendingBlocks.toNat { state with down := indices })
    (represents : Represents base { system.link with host, down } { state with down := indices })
    (notices : host.notices = system.link.host.notices) : Accounted base before
      { system with link := { system.link with host, down } } { state with down := indices }
      arrivals waiting released :=
  { accounted with
    invariant
    represents
    notifyQueue := (congrArg Notices.notifyQueue notices).trans accounted.notifyQueue
    queue := by
      rw [← accounted.queue]
      exact congrArg (system.pulled ++ ·) (congrArg Notices.receiveQueue notices) }

/-- The micro-controller sends messages, its responses to a block being the next ones. -/
theorem sends {added : List Upward} (invariant : GoBackN.Invariant maxPendingBlocks.toNat next)
    (represents : Represents base link next) (host : link.host = system.link.host)
    (built : link.built = system.link.built) (sent : next.sent = state.sent)
    (accepted : state.accepted ≤ next.accepted)
    (up : link.up = system.link.up ++ (added.map Upward.payload).map (commandAddFrame link.mcu))
    (counts : next.up = state.up ++ replicate added.length next.accepted)
    (dispatched : ∀ sent ∈ added, sent.dispatched = next.accepted)
    (fits : ∀ sent ∈ added, sent.payload.length ≤ messagePayloadMax)
    (origins : ∀ sent ∈ added, ∀ block, sent.origin = some block → sent.dispatched = block + 1 ∧
      state.accepted = block ∧ sent.payload ≠ [])
    (acksLast : added.Pairwise fun first second => first.payload = [] →
      ∀ block, second.origin = some block → first.dispatched ≤ block) :
    Accounted base before { system with link, upward := system.upward ++ added } next
      arrivals waiting released :=
  { accounted with
    invariant
    represents
    messages := by
      rw [up]
      apply rel_append accounted.messages
      rw [map_map]
      apply forall₂_map_left_iff.mpr
      apply forall₂_same.mpr
      intro message member
      refine ⟨?_, fits message member⟩
      rw [dispatched message member, ← represents.nextSequence]
      rfl
    counts := by
      rw [counts, accounted.counts, map_append, append_cancel_left_eq]
      exact (map_eq_replicate_iff.mpr dispatched).symm
    origins := by
      intro message member block isOrigin
      rcases mem_append.mp member with old | new
      · exact accounted.origins message old block isOrigin
      · rcases origins message new block isOrigin with ⟨count, rfl, isResponse⟩
        exact ⟨count, accounted.released_le, isResponse⟩
    acksLast := by
      apply pairwise_append.mpr
      refine ⟨accounted.acksLast, acksLast, ?_⟩
      intro first old second new isAck block isOrigin
      rcases origins second new block isOrigin with ⟨-, rfl, -⟩
      apply accounted.invariant.up_le
      rw [accounted.counts]
      exact mem_map_of_mem old
    blocks := by
      rw [built]
      exact accounted.blocks
    placed_lt := by
      rw [sent]
      exact accounted.placed_lt
    notifyQueue := by
      rw [host]
      exact accounted.notifyQueue
    released_le := le_trans accounted.released_le accepted
    queue := by
      rw [host]
      exact accounted.queue }

theorem build
    (invariant : GoBackN.Invariant maxPendingBlocks.toNat
      { state with sent := state.sent + 1, down := state.down ++ [state.sent] })
    (built : buildAndSendCommand system.link.host = some (host, block)) : Accounted base before
      { system with
        link := { system.link with
          host
          down := system.link.down ++ [block]
          built := system.link.built ++ [block] }
        placed := system.placed ++
          (blockMessages system.link.host).map (system.link.built.length, ·) }
      { state with sent := state.sent + 1, down := state.down ++ [state.sent] } arrivals
      (waiting ++ ((blockMessages system.link.host).filter (·.notifyId ≠ 0)).map
        (system.link.built.length, ·)) released := by
  have represents := accounted.represents
  have accepted_le := accounted.invariant.accepted_le
  have acked_le := le_trans accounted.invariant.acked_le accepted_le
  have notices := buildAndSendCommand_notices built
  have length := represents.builtLength
  exact { accounted with
    invariant
    represents := represents.build acked_le accepted_le built
    blocks := by
      intro index other found
      have placed_lt := accounted.placed_lt
      rw [← length] at placed_lt
      rw [contents_append placed_lt]
      split
      next isNew =>
        rw [isNew] at found
        rw [getElem?_concat_length] at found
        cases found
        exact buildAndSendCommand_contents built
      next notNew =>
        rw [getElem?_append] at found
        split at found
        · exact accounted.blocks found
        next notOld =>
          have inside := (List.getElem?_eq_some_iff.mp found).1
          rw [length_singleton] at inside
          omega
    sorted := by
      apply pairwise_append.mpr
      refine ⟨accounted.sorted, ?_, ?_⟩
      · apply pairwise_map.mpr
        exact pairwise_of_forall fun _ _ => le_rfl
      intro first old second new
      rcases mem_map.mp new with ⟨qm, -, rfl⟩
      have below := accounted.placed_lt first old
      omega
    placed_lt := by
      refine forall_mem_append.mpr ⟨fun placed old => ?_, forall_mem_map.mpr fun _ _ => ?_⟩
      · exact Nat.lt_succ_of_lt (accounted.placed_lt placed old)
      · exact length.trans_lt (Nat.lt_succ_self _)
    notifying_eq := by
      have old := accounted.notifying_eq
      unfold notifying at old ⊢
      rw [filter_append, old, append_assoc, filter_map]
      rfl
    notifyQueue := by
      rw [map_append, ← accounted.notifyQueue]
      refine (congrArg Notices.notifyQueue notices).trans ?_
      rw [map_map, represents.sendSeq, ← length]
      rfl
    waiting_ge := by
      refine forall_mem_append.mpr ⟨accounted.waiting_ge, forall_mem_map.mpr fun _ _ => ?_⟩
      have released_le := accounted.released_le
      omega
    queue := by
      rw [← accounted.queue]
      exact congrArg (system.pulled ++ ·) (congrArg Notices.receiveQueue notices) }

theorem loseUp (index : Nat)
    (invariant : GoBackN.Invariant maxPendingBlocks.toNat
      { state with up := state.up.eraseIdx index }) :
    Accounted base before
      { system with
        link := { system.link with up := system.link.up.eraseIdx index }
        upward := system.upward.eraseIdx index }
      { state with up := state.up.eraseIdx index } arrivals waiting released :=
  { accounted with
    invariant
    represents := accounted.represents.loseUp index
    messages := forall₂_eraseIdx accounted.messages index
    counts := by rw [accounted.counts, eraseIdx_map]
    origins := by
      intro sent member
      exact accounted.origins sent (mem_of_mem_eraseIdx member)
    acksLast := accounted.acksLast.sublist (eraseIdx_sublist _ _) }

theorem pull (queued : system.link.host.receiveQueue = qm :: rest) : Accounted base before
      { system with
        link := { system.link with host := { system.link.host with receiveQueue := rest } }
        pulled := system.pulled ++ [qm] }
      state arrivals waiting released :=
  { accounted with
    represents := accounted.represents.withHost rfl
    queue := by
      rw [← accounted.queue, queued, append_assoc]
      rfl }

omit accounted in
/-- A message leaves the channel to the host: `front` is released and a response is queued. -/
theorem receives (accounted : Accounted base before system state arrivals (front ++ back) released)
    (isUpward : system.upward = sent :: others)
    (invariant : GoBackN.Invariant maxPendingBlocks.toNat
      { state with acked, up := others.map Upward.dispatched })
    (represents : Represents base { system.link with host, up }
      { state with acked, up := others.map Upward.dispatched })
    (messages : Forall₂ (fun message sent => message =
      addFrame (blockSequence (base + .ofNat sent.dispatched)) sent.payload ∧
        sent.payload.length ≤ messagePayloadMax) up others)
    (notices : host.notices = ⟨back.map (stamped base),
      system.link.host.receiveQueue ++ (sent.arrivals block front).map Arrival.received⟩)
    (isFront : ∀ placed ∈ front, placed.1 < sent.releaseLimit)
    (isBack : ∀ placed ∈ back, sent.releaseLimit ≤ placed.1) : Accounted base before
      { system with
        link := { system.link with host, up }
        upward := others
        acked := if sent.payload = [] then max system.acked sent.dispatched else system.acked
        delivered := system.delivered ++
          if sent.payload = [] then [] else [(sent.origin, block)] }
      { state with acked, up := others.map Upward.dispatched }
      (arrivals ++ sent.arrivals block front) back (max released sent.releaseLimit) := by
  have count_le : sent.dispatched ≤ state.accepted := by
    apply accounted.invariant.up_le
    simp [accounted.counts, isUpward]
  have limit_le : sent.releaseLimit ≤ sent.dispatched := Nat.sub_le _ _
  have origins := accounted.origins
  have acksLast := accounted.acksLast
  have order := accounted.invariant.up_order
  rw [accounted.counts] at order
  rw [isUpward] at origins acksLast order
  rw [pairwise_cons] at acksLast
  rw [map_cons, pairwise_cons] at order
  exact { accounted with
    invariant
    represents
    messages
    counts := rfl
    origins := by
      intro other member origin isOrigin
      rcases origins other (mem_cons_of_mem _ member) origin isOrigin with
        ⟨count, notReleased, isResponse⟩
      refine ⟨count, Nat.max_le.mpr ⟨notReleased, ?_⟩, isResponse⟩
      -- An ack is behind the responses to its block, a response does not release its own block.
      by_cases isAck : sent.payload = []
      · exact le_trans limit_le (acksLast.1 other member isAck origin isOrigin)
      · have later := order.1 _ (mem_map_of_mem member)
        rw [Upward.releaseLimit, if_pos isAck]
        omega
    acksLast := acksLast.2
    notifying_eq := by
      rw [notifications_received, append_assoc]
      exact accounted.notifying_eq
    notifyQueue := congrArg Notices.notifyQueue notices
    produced_lt := by
      rw [notifications_received]
      intro placed member
      rcases mem_append.mp member with old | new
      · exact lt_of_lt_of_le (accounted.produced_lt placed old) (Nat.le_max_left _ _)
      · exact lt_of_lt_of_le (isFront placed new) (Nat.le_max_right _ _)
    waiting_ge := by
      intro placed member
      apply Nat.max_le.mpr
      exact ⟨accounted.waiting_ge placed (mem_append_right _ member), isBack placed member⟩
    acked_le := by
      dsimp only
      have acked_le := accounted.acked_le
      split
      next isAck =>
        rw [Upward.releaseLimit, if_neg (not_not.mpr isAck)]
        omega
      · omega
    released_le := Nat.max_le.mpr ⟨accounted.released_le, le_trans limit_le count_le⟩
    queue := by
      rw [map_append, ← append_assoc, ← accounted.queue, append_assoc]
      exact congrArg (system.pulled ++ ·) (congrArg Notices.receiveQueue notices)
    responses := by
      have noneOfFront : (front.map fun placed =>
          Arrival.notification placed.1 placed.2).filterMap Arrival.response? = [] := by
        simp [Arrival.response?]
      rw [filterMap_append, Upward.arrivals, filterMap_append, noneOfFront, nil_append,
        Upward.responseArrival, accounted.responses]
      split <;> rfl
    responsesFirst := by
      apply responsesFirst_received accounted.responsesFirst
      intro isResponse placed member isOrigin
      rcases origins sent mem_cons_self placed.1 isOrigin with ⟨count, notReleased, -⟩
      rcases mem_append.mp member with old | new
      · exact absurd (accounted.produced_lt placed old) (Nat.not_lt.mpr notReleased)
      · have below := isFront placed new
        rw [Upward.releaseLimit, if_pos isResponse, count] at below
        omega }

theorem deliverDown {rest : List (List UInt8)} (underWay : system.link.down = block :: rest)
    {responses : List (List UInt8)} (fits : (LinkEvent.deliverDown responses).Fits) :
    ∃ next, Accounted base before
      { system.record (.deliverDown responses) with
        link := consoleTask { system.link with down := rest } block responses }
      next arrivals waiting released := by
  have invariant := accounted.invariant
  have dispatched := accounted.represents.dispatched_length invariant.accepted_le
  have recorded : system.record (.deliverDown responses) =
      { system with
        upward := system.upward ++ NotifyLink.answers system.link block responses } := by
    rw [NotifyLink.record, underWay]
  have up := consoleTask_up { system.link with down := rest } block responses
  have host := consoleTask_host { system.link with down := rest } block responses
  have built := consoleTask_built { system.link with down := rest } block responses
  rw [recorded]
  rcases accounted.represents.consoleTask_cases invariant underWay responses with
    ⟨index, indices, numbers, ⟨found, rfl, represents⟩ | ⟨outOfSequence, represents⟩⟩
  · have added : NotifyLink.answers system.link block responses = responses.map (fun payload =>
        ⟨payload, state.accepted + 1, some state.accepted⟩) ++
          [⟨[], state.accepted + 1, none⟩] := by
      rw [NotifyLink.answers, found, dispatched]
    have all : ∀ {Holds : Upward → Prop},
        (∀ payload ∈ responses, Holds ⟨payload, state.accepted + 1, some state.accepted⟩) →
        Holds ⟨[], state.accepted + 1, none⟩ →
        ∀ sent ∈ NotifyLink.answers system.link block responses, Holds sent := by
      intro Holds ofResponse ofAck
      rw [added]
      exact forall_mem_append.mpr ⟨forall_mem_map.mpr ofResponse, forall_mem_singleton.mpr ofAck⟩
    have steps : GoBackN.Steps maxPendingBlocks.toNat state _ :=
      .head (.accept state indices numbers) (GoBackN.Steps.signals _ _ (responses ++ [[]]).length)
    refine ⟨_, accounted.sends (steps.invariant invariant) represents host built rfl (Nat.le_succ _)
      up ?_ ?_ ?_ ?_ ?_⟩
    · simp [added]
    · exact all (fun _ _ => rfl) rfl
    · exact all (fun payload isResponse => (fits payload isResponse).2) zero_le
    · apply all
      · rintro payload isResponse _ ⟨⟩
        exact ⟨rfl, rfl, (fits payload isResponse).1⟩
      · rintro _ ⟨⟩
    · rw [added]
      apply pairwise_append.mpr
      refine ⟨?_, pairwise_singleton _ _, ?_⟩
      · apply pairwise_map.mpr
        apply pairwise_of_forall_mem_list
        intro first isFirst second _ isAck
        exact absurd isAck (fits first isFirst).1
      · intro first _ second isLast _ block isOrigin
        rw [mem_singleton.mp isLast] at isOrigin
        cases isOrigin
  · have added : NotifyLink.answers system.link block responses = [⟨[], state.accepted, none⟩] := by
      rw [NotifyLink.answers, outOfSequence, dispatched]
      rfl
    have steps : GoBackN.Steps maxPendingBlocks.toNat state
        { state with down := indices, up := state.up ++ [state.accepted] } := by
      refine .head (.lose state indices state.up ?_ (Sublist.refl _)) (GoBackN.Steps.signals _ _ 1)
      rw [numbers]
      exact sublist_cons_self index indices
    refine ⟨_, accounted.sends (steps.invariant invariant) represents host built rfl le_rfl
      up ?_ ?_ ?_ ?_ ?_⟩ <;> simp [added]

variable (twoLe : 2 ≤ base.toNat) (noWrap : base.toNat + state.sent < 2 ^ 64)
include twoLe noWrap

theorem receive (underWay : system.link.up = block :: rest) :
    ∃ next arrivals waiting released, Accounted base before
      { system.record .deliverUp with
        link := { system.link with host := inputBlock system.link.host block, up := rest } }
      next arrivals waiting released := by
  have invariant := accounted.invariant
  have messages := accounted.messages
  rw [underWay] at messages
  rcases forall₂_cons_left_iff.mp messages with
    ⟨sent, others, ⟨framed, fits⟩, otherMessages, isUpward⟩
  rcases accounted.represents.inputBlock_cases invariant underWay with
    ⟨count, counts, acked, numbers, ackedCases, isRseq, represents⟩
  have headAndTail := accounted.counts
  rw [isUpward, numbers, map_cons] at headAndTail
  rcases cons_eq_cons.mp headAndTail with ⟨rfl, rfl⟩
  have nextInvariant : GoBackN.Invariant maxPendingBlocks.toNat
      { state with acked, up := others.map Upward.dispatched } := by
    rcases ackedCases with rfl | rfl
    · apply GoBackN.Step.invariant (.lose state state.down _ (Sublist.refl _) ?_) invariant
      rw [numbers]
      exact sublist_cons_self _ _
    · exact GoBackN.Step.invariant (.acknowledge state _ _ numbers) invariant
  have count_le : sent.dispatched ≤ state.accepted := invariant.up_le _ (by simp [numbers])
  have accepted_le := invariant.accepted_le
  have notAbove : base + UInt64.ofNat sent.dispatched ≤ system.link.host.sendSeq := by
    rw [accounted.represents.sendSeq, UInt64.le_iff_toNat_le, toNat_base_add, toNat_base_add]
    omega
  rcases exists_split (pairwise_append.mp accounted.notifying_sorted).2.1 sent.releaseLimit with
    ⟨front, back, rfl, isFront, isBack⟩
  have blockFits : ∀ placed ∈ front ++ back, base.toNat + placed.1 < 2 ^ 64 := by
    intro placed member
    have isNotifying : placed ∈ notifying system.placed := by
      rw [accounted.notifying_eq]
      exact mem_append_right _ member
    have below := accounted.placed_lt placed (mem_of_mem_filter isNotifying)
    omega
  have notices := inputBlock_notices twoLe framed fits isRseq notAbove (by omega)
    accounted.notifyQueue blockFits isFront isBack
  have recorded : system.record .deliverUp =
      { system with
        upward := others
        acked := if sent.payload = [] then max system.acked sent.dispatched else system.acked
        delivered := system.delivered ++
          if sent.payload = [] then [] else [(sent.origin, block)] } := by
    rw [NotifyLink.record, underWay, isUpward]
    dsimp only
    split_ifs
    · rw [append_nil]
    · rfl
  rw [recorded]
  exact ⟨_, _, _, _, accounted.receives isUpward nextInvariant represents
    otherMessages notices isFront isBack⟩

/-! ## Steps and runs -/

theorem linkStep {event : LinkEvent} (fits : event.Fits)
    (stepped : SerialLink.linkStep system.link event = some link) :
    ∃ next arrivals waiting released, Accounted base before
      { system.record event with link } next arrivals waiting released := by
  have invariant := accounted.invariant
  have represents := accounted.represents
  cases event with
  | sendBatch cq msgs =>
    cases stepped
    exact ⟨state, _, _, _, accounted.keep invariant
      (represents.withHost (serialqueueSendBatch_keeps SerialQueue.window fun _ _ _ => rfl))
      (serialqueueSendBatch_keeps SerialQueue.notices fun _ _ _ => rfl)⟩
  | checkSend clocks =>
    cases stepped
    exact ⟨state, _, _, _, accounted.keep invariant
      (represents.withHost (checkSendCommand_keeps SerialQueue.window _ clocks fun _ => rfl))
      (checkSendCommand_keeps SerialQueue.notices _ clocks fun _ => rfl)⟩
  | buildAndSend =>
    rcases Option.ite_none_right_eq_some.mp stepped with ⟨room, stepped⟩
    rcases Option.map_eq_some_iff.mp stepped with ⟨⟨host, block⟩, built, rfl⟩
    have step : GoBackN.Step maxPendingBlocks.toNat state _ :=
      .build state (represents.room invariant room)
    exact ⟨_, _, _, _, accounted.build (step.invariant invariant) built⟩
  | retransmit =>
    cases stepped
    have step : GoBackN.Step maxPendingBlocks.toNat state _ := .retransmit state
    exact ⟨_, _, _, _, accounted.keep (step.invariant invariant) represents.retransmit rfl⟩
  | deliverDown responses =>
    rw [SerialLink.linkStep] at stepped
    split at stepped
    · cases stepped
    next block rest underWay =>
      cases stepped
      rcases accounted.deliverDown underWay fits with ⟨next, follows⟩
      exact ⟨next, _, _, _, follows⟩
  | deliverUp =>
    rw [SerialLink.linkStep] at stepped
    split at stepped
    · cases stepped
    next block rest underWay =>
      cases stepped
      exact accounted.receive twoLe noWrap underWay
  | loseDown index =>
    cases stepped
    have step : GoBackN.Step maxPendingBlocks.toNat state _ :=
      .lose state _ state.up (eraseIdx_sublist state.down index) (Sublist.refl _)
    exact ⟨_, _, _, _, accounted.keep (step.invariant invariant) (represents.loseDown index) rfl⟩
  | loseUp index =>
    cases stepped
    have step : GoBackN.Step maxPendingBlocks.toNat state _ :=
      .lose state state.down _ (Sublist.refl _) (eraseIdx_sublist state.up index)
    exact ⟨_, _, _, _, accounted.loseUp index (step.invariant invariant)⟩
  | mcuSend payload =>
    cases stepped
    have dispatched := represents.dispatched_length invariant.accepted_le
    have steps := GoBackN.Steps.signals maxPendingBlocks.toNat state 1
    refine ⟨_, _, _, _, accounted.sends (steps.invariant invariant)
      (represents.signal [payload]) rfl rfl rfl le_rfl rfl rfl ?_ ?_ ?_ ?_⟩
    · simp [dispatched]
    · simpa [LinkEvent.Fits] using fits
    · simp
    · simp

theorem step (stepped : system.step event = some final) : ∃ next arrivals waiting released,
      Accounted base before final next arrivals waiting released := by
  cases event with
  | link event =>
    rcases Option.ite_none_right_eq_some.mp stepped with ⟨fits, stepped⟩
    rcases Option.map_eq_some_iff.mp stepped with ⟨link, linkStepped, rfl⟩
    exact accounted.linkStep twoLe noWrap fits linkStepped
  | pull =>
    rw [NotifyLink.step, NotifyLink.serialqueuePull] at stepped
    split at stepped
    · cases stepped
    next qm rest queued =>
      cases stepped
      exact ⟨state, _, _, _, accounted.pull queued⟩

end

end Accounted

theorem linkStep_built_le {next : Link} (stepped : linkStep link event = some next) :
    link.built.length ≤ next.built.length := by
  cases event with
  | buildAndSend =>
    rcases Option.ite_none_right_eq_some.mp stepped with ⟨-, stepped⟩
    rcases Option.map_eq_some_iff.mp stepped with ⟨⟨host, block⟩, -, rfl⟩
    simp
  | deliverDown responses =>
    rw [linkStep] at stepped
    split at stepped
    · cases stepped
    · cases stepped
      rw [consoleTask_built]
  | deliverUp =>
    rw [linkStep] at stepped
    split at stepped
    · cases stepped
    · cases stepped
      exact le_rfl
  | sendBatch | checkSend | retransmit | loseDown | loseUp | mcuSend =>
    cases stepped
    exact le_rfl

theorem NotifyLink.step_built_le {system next : NotifyLink}
    (stepped : system.step event = some next) :
    system.link.built.length ≤ next.link.built.length := by
  cases event with
  | link event =>
    rw [step] at stepped
    split at stepped
    · rcases Option.map_eq_some_iff.mp stepped with ⟨link, linkStepped, rfl⟩
      exact linkStep_built_le linkStepped
    · cases stepped
  | pull =>
    rw [step, serialqueuePull] at stepped
    split at stepped
    · cases stepped
    · cases stepped
      exact le_rfl

/-- Notifications are exact and ordered, as long as `send_seq` does not wrap. -/
theorem notifications_exact_and_ordered {start final : NotifyLink}
    (synchronised : NotifyLink.Synchronised start) (twoLe : 2 ≤ start.link.host.sendSeq.toNat)
    {events : List NotifyEvent} (ran : runEvents NotifyLink.step start events = some final)
    (noWrap : start.link.host.sendSeq.toNat + final.link.built.length < 2 ^ 64) :
    ∃ arrivals, final.Exact start.link.host.receiveQueue arrivals := by
  let Kept (system : NotifyLink) : Prop :=
    start.link.host.sendSeq.toNat + system.link.built.length < 2 ^ 64 →
      ∃ state arrivals waiting released, Accounted start.link.host.sendSeq
        start.link.host.receiveQueue system state arrivals waiting released
  have kept : ∀ system event next, Kept system → system.step event = some next → Kept next := by
    intro system event next holds stepped noWrapNext
    have grows := NotifyLink.step_built_le stepped
    rcases holds (by omega) with ⟨state, arrivals, waiting, released, accounted⟩
    have length := accounted.represents.builtLength
    exact accounted.step twoLe (by omega) stepped
  have initially : Kept start := fun _ => ⟨_, _, _, _, .of_synchronised synchronised⟩
  rcases runEvents_invariant kept initially ran noWrap with
    ⟨state, arrivals, waiting, released, accounted⟩
  exact ⟨arrivals, accounted.isExact⟩

def NotifyLink.ofLink (link : Link) : NotifyLink := ⟨link, [], [], 0, [], []⟩

theorem NotifyLink.synchronised_ofLink {link : Link} (synchronised : SerialLink.Synchronised link)
    (noneWaiting : link.host.notifyQueue = []) : NotifyLink.Synchronised (.ofLink link) :=
  ⟨synchronised, noneWaiting, rfl, rfl, rfl, rfl, rfl⟩

def twoNotifying : List NotifyEvent :=
  [.link (.sendBatch 0 [⟨[7], 0, 1, 1⟩]), .link (.checkSend ⟨0, 0, false, 0⟩),
    .link .buildAndSend, .link (.sendBatch 0 [⟨[8, 9], 0, 2, 2⟩]),
    .link (.checkSend ⟨0, 0, false, 0⟩), .link .buildAndSend]

/-- After a loss in both directions and a retransmission, the response to the first block is
pulled before the two notifications. -/
theorem notifications_exact_after_loss :
    ∃ events final, runEvents NotifyLink.step (.ofLink connected) events = some final ∧
      final.pulled.map ReceivedMessage.notifyId = [0, 1, 2] ∧
      ∃ arrivals, final.Exact connected.host.receiveQueue arrivals := by
  let events : List NotifyEvent := twoNotifying ++
    [.link (.loseDown 0), .link (.deliverDown []), .link .deliverUp, .link .retransmit,
      .link (.deliverDown [[1, 2]]), .link (.deliverDown []), .link .deliverUp,
      .link (.loseUp 0), .link .deliverUp, .pull, .pull, .pull]
  have observed : (runEvents NotifyLink.step (.ofLink connected) events).map (fun system =>
      (system.pulled.map ReceivedMessage.notifyId, system.link.built.length)) =
        some ([0, 1, 2], 2) := by
    decide +kernel
  rcases Option.map_eq_some_iff.mp observed with ⟨final, ran, seen⟩
  have synchronised : SerialLink.Synchronised connected := by
    constructor <;> decide
  have length : final.link.built.length = 2 := congrArg Prod.snd seen
  refine ⟨events, final, ran, congrArg Prod.fst seen, ?_⟩
  apply notifications_exact_and_ordered (NotifyLink.synchronised_ofLink synchronised rfl)
    (by decide) ran
  rw [length]
  decide

/-! ## The number of a block wraps -/

theorem length_notifications {arrivals : List Arrival}
    (notify : ∀ qm ∈ arrivals.map Arrival.received, qm.notifyId ≠ 0) :
    (arrivals.filterMap Arrival.notification?).length = arrivals.length := by
  induction arrivals with
  | nil => rfl
  | cons arrival arrivals induction =>
    rw [map_cons, forall_mem_cons] at notify
    cases arrival with
    | response origin msg => exact absurd rfl notify.1
    | notification block qm =>
      have tail := induction notify.2
      simpa [Arrival.notification?] using tail

def connectedAt (number : UInt64) (nextSequence : UInt8) : Link :=
  { connected with
    host := { serialqueueAlloc with sendSeq := number, receiveSeq := number }
    mcu := { FindBlockState.initial with nextSequence } }

theorem not_exact_of_observed (link : Link) (events : List NotifyEvent) (ids : List UInt64)
    (blocks : List Nat) (count : Nat)
    (observed : (runEvents NotifyLink.step (.ofLink link) events).map (fun system =>
      ((system.pulled ++ system.link.host.receiveQueue).map ReceivedMessage.notifyId,
        (notifying system.placed).map Prod.fst, system.link.dispatched.length)) =
      some (ids, blocks, count))
    (notify : ∀ id ∈ ids, id ≠ 0) (early : ∃ block ∈ blocks.take ids.length, count ≤ block)
    (noneWaiting : link.host.notifyQueue = []) (synchronised : SerialLink.Synchronised link) :
    ∃ events final, NotifyLink.Synchronised (.ofLink link) ∧
      runEvents NotifyLink.step (.ofLink link) events = some final ∧
      ¬∃ arrivals, final.Exact [] arrivals := by
  rcases Option.map_eq_some_iff.mp observed with ⟨final, ran, seen⟩
  rcases seen with ⟨rfl, rfl, rfl⟩
  refine ⟨events, final, NotifyLink.synchronised_ofLink synchronised noneWaiting, ran, ?_⟩
  rintro ⟨arrivals, exact⟩
  rcases early with ⟨block, isEarly, notBelow⟩
  rw [← map_take, length_map] at isEarly
  rcases mem_map.mp isEarly with ⟨placed, member, rfl⟩
  -- Only notifications came through the queue, so they are for the first messages that asked for
  -- one, and the blocks of these were dispatched.
  rw [forall_mem_map, exact.queue, nil_append] at notify
  rw [exact.queue, nil_append, length_map, ← length_notifications notify,
    ← prefix_iff_eq_take.mp exact.inOrder] at member
  exact absurd (exact.afterDispatch placed member) (Nat.not_lt.mpr notBelow)

/-- When the number of the second block wraps to zero, the ack for the first block releases its
notification before it is dispatched, and so does a nak when the first block has that number. -/
theorem notification_before_dispatch_at_wrap :
    (∃ events final, NotifyLink.Synchronised (.ofLink (connectedAt 0xFFFFFFFFFFFFFFFF 0x1F)) ∧
      runEvents NotifyLink.step (.ofLink (connectedAt 0xFFFFFFFFFFFFFFFF 0x1F)) events =
        some final ∧
      ¬∃ arrivals, final.Exact [] arrivals) ∧
    ∃ events final, NotifyLink.Synchronised (.ofLink (connectedAt 0 0x10)) ∧
      runEvents NotifyLink.step (.ofLink (connectedAt 0 0x10)) events = some final ∧
      ¬∃ arrivals, final.Exact [] arrivals := by
  constructor
  · apply not_exact_of_observed _ (twoNotifying ++ [.link (.deliverDown []), .link .deliverUp])
      [1, 2] [0, 1] 1 (by decide +kernel) (by simp) (by decide) rfl
    constructor <;> decide
  · apply not_exact_of_observed _ (twoNotifying ++ [.link (.mcuSend []), .link .deliverUp])
      [1, 2] [0, 1] 0 (by decide +kernel) (by simp) (by decide) rfl
    constructor <;> decide

end CentauriCarbon.SerialLink
