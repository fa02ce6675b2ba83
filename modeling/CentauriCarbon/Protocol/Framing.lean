import CentauriCarbon.Protocol.CommandFindBlock

/-! # Framing of the serial link

Both ends recognise the same blocks in a byte stream, however it is cut, and both
recover at an inserted SYNC byte whatever garbage precedes it.
-/

namespace CentauriCarbon.Protocol

open List

def inputBufSize : Nat := 4096

/-- Host and micro-controller hand over the same blocks for every way of cutting a
stream into reads, and the host never keeps as much as one maximal block. -/
theorem framing_independent_of_cuts (needSync : Bool) (stream : List UInt8)
    (reads otherReads : List (List UInt8))
    (cut : reads.flatten = stream) (otherCut : otherReads.flatten = stream)
    (state : FindBlockState) (events : List ConsoleEvent)
    (sameSync : state.needSync = needSync)
    (arrived : receivedBytes events = stream)
    (neverFull : NeverFull (consoleStart state) events) :
    (inputEvents needSync reads).items = (inputEvents needSync otherReads).items ∧
    (∀ count, (inputEvents needSync (reads.take count)).buffer.length < messageMax ∧
      (inputEvents needSync (reads.take count)).buffer.length < inputBufSize) ∧
    (consoleScanner.settle (consoleEvents (consoleStart state) events)).items =
      (inputEvents needSync reads).items := by
  refine ⟨?_, ?_, ?_⟩
  · rw [inputEvents_items, inputEvents_items, cut, otherCut]
  · intro count
    have buffered := (inputEventStep_framing _ _).length_lt
      (inputEvents_waits needSync (reads.take count))
    exact ⟨buffered, buffered.trans (by decide)⟩
  · rw [consoleEvents_items state events neverFull, inputEvents_items, cut, arrived, sameSync]

/-- An ack block, cut in two ways by the host and received byte by byte. -/
theorem framing_independent_of_cuts_ack :
    let stream : List UInt8 := [5, 0x10, 158, 129, 0x7e]
    let events := stream.map ConsoleEvent.serialRxByte ++ [.consoleTask]
    NeverFull (consoleStart .initial) events ∧
    (inputEvents false [[5, 0x10, 158], [129, 0x7e]]).items =
      (inputEvents false [[5], [0x10], [158, 129, 0x7e]]).items ∧
    (consoleScanner.settle (consoleEvents (consoleStart .initial) events)).items = [stream] := by
  have independent := framing_independent_of_cuts false [5, 0x10, 158, 129, 0x7e]
    [[5, 0x10, 158], [129, 0x7e]] [[5], [0x10], [158, 129, 0x7e]] rfl rfl .initial
    (([5, 0x10, 158, 129, 0x7e] : List UInt8).map ConsoleEvent.serialRxByte ++
      [.consoleTask]) rfl rfl (by decide)
  refine ⟨by decide, independent.1, ?_⟩
  rw [independent.2.2]
  decide

/-- A block that `msgblock_check` accepts as it stands. -/
def WellFormedBlock (block : List UInt8) : Prop :=
  msgblockCheck false block = ((block.length : Int), false) ∧ block ≠ []

theorem drain_wellFormedBlock (wellFormed : WellFormedBlock block) (more : List UInt8) :
    frameScanner.drain false (block ++ more) = (frameScanner.drain false more).prepend [block] := by
  have verdict := msgblockCheck_eq_length_iff.mp wellFormed
  rw [frameScanner.drain_of_some (frameScanner_step_valid (frameAt_append_of_valid more verdict))]
  simp

theorem drain_wellFormedBlocks (wellFormed : ∀ block ∈ blocks, WellFormedBlock block)
    (more : List UInt8) : frameScanner.drain false (blocks.flatten ++ more) =
      (frameScanner.drain false more).prepend blocks := by
  induction blocks with
  | nil => simp
  | cons block blocks induction =>
    rw [flatten_cons, append_assoc, drain_wellFormedBlock (wellFormed block (by simp)),
      induction fun other member => wellFormed other (by simp [member]),
      ScanSession.prepend_prepend]
    rfl

/-- The first SYNC of a buffer that holds an inserted one is not behind it. -/
theorem discardStep_before_sync (garbage rest : List UInt8) :
    (discardStep (garbage ++ messageSync :: rest)).next = false ∧
    ((discardStep (garbage ++ messageSync :: rest)).consumed = garbage.length + 1 ∨
      (discardStep (garbage ++ messageSync :: rest)).consumed ≤ garbage.length) := by
  unfold discardStep
  cases found : (garbage ++ messageSync :: rest).idxOf? messageSync with
  | none => simp [idxOf?_eq_none_iff] at found
  | some index =>
    refine ⟨rfl, ?_⟩
    have first := (findIdx?_eq_some_iff_getElem.mp found).2.2
    by_contra beyond
    simp only [not_or] at beyond
    have earlier := first garbage.length (by omega)
    simp at earlier

/-- No frame that starts in the garbage or at the inserted SYNC is valid. -/
def NoFrameBefore (garbage rest : List UInt8) : Prop :=
  ∀ start ≤ garbage.length, ∀ length,
    frameAt ((garbage ++ messageSync :: rest).drop start) ≠ .valid length

theorem NoFrameBefore.drop {garbage rest : List UInt8} (noFrame : NoFrameBefore garbage rest)
    {count : Nat} (within : count ≤ garbage.length) : NoFrameBefore (garbage.drop count) rest := by
  intro start bounded length
  have shifted := noFrame (count + start) (by simp at bounded; omega) length
  rwa [← drop_drop, drop_append_of_le_length within] at shifted

/-- A receiver that discards where framing does stops exactly behind the inserted
SYNC byte, in sync and with nothing handed over. -/
theorem runFor_reaches_sync {State : Type} (scanner : Scanner State UInt8 (List UInt8))
    (needSync : State → Bool)
    (discards : ∀ state buf, messageMax ≤ buf.length →
      (∀ length, frameAt buf ≠ .valid length) →
      ∃ next, needSync next = (discardStep buf).next ∧
        scanner.step state buf = some ⟨(discardStep buf).consumed, next, []⟩)
    (rest : List UInt8) (long : messageMax ≤ rest.length) :
    ∀ (garbage : List UInt8) (state : State), NoFrameBefore garbage rest →
      ∃ fuel next, needSync next = false ∧
        scanner.runFor fuel state (garbage ++ messageSync :: rest) = ⟨[], next, rest⟩ := by
  intro garbage
  -- Each discard shortens the garbage, because it drops at least one byte.
  induction size : garbage.length using Nat.strong_induction_on generalizing garbage with
  | _ size induction =>
    intro state noFrame
    subst size
    have enough : messageMax ≤ (garbage ++ messageSync :: rest).length := by
      simp only [length_append, length_cons]
      omega
    rcases discards state (garbage ++ messageSync :: rest) enough
      (noFrame 0 (Nat.zero_le _)) with ⟨next, nextSync, stepped⟩
    have positive := scanner.consumed_pos stepped
    rcases discardStep_before_sync garbage rest with ⟨synced, atSync | within⟩
    · refine ⟨1, next, nextSync.trans synced, ?_⟩
      simp [Scanner.runFor, stepped, atSync]
    have shorter : (garbage.drop
        (discardStep (garbage ++ messageSync :: rest)).consumed).length < garbage.length := by
      rw [length_drop]
      simp only at positive
      omega
    rcases induction _ shorter _ rfl next (noFrame.drop within) with
      ⟨fuel, last, lastSync, reached⟩
    refine ⟨fuel + 1, last, lastSync, ?_⟩
    simp only [Scanner.runFor, stepped]
    rw [drop_append_of_le_length within, reached]
    rfl

/-- Once behind the SYNC, framing finds the blocks one after the other. -/
theorem drain_items_of_reaches_sync {State : Type} {scanner : Scanner State UInt8 (List UInt8)}
    {needSync : State → Bool} (refines : scanner.Refines frameScanner needSync)
    (wellFormed : ∀ block ∈ blocks, WellFormedBlock block) {stream tail : List UInt8}
    {state next : State} (synced : needSync next = false)
    (reached : scanner.runFor fuel state stream = ⟨[], next, blocks.flatten ++ tail⟩) :
    (frameScanner.drain (needSync state) stream).items =
      blocks ++ (frameScanner.drain false tail).items := by
  have agrees := Scanner.runFor_agrees refines fuel state stream
  rw [Scanner.Agrees, reached, synced, drain_wellFormedBlocks wellFormed] at agrees
  rw [agrees]
  simp

/-- Recovery after garbage. Whatever precedes an inserted SYNC byte, as long as no
frame that starts there is valid, both receivers resume exactly behind the SYNC and
hand over the blocks that follow, then what they find in the tail. -/
theorem resynchronisation (needSync : Bool) (garbage : List UInt8)
    (blocks : List (List UInt8)) (tail : List UInt8)
    (wellFormed : ∀ block ∈ blocks, WellFormedBlock block)
    (long : messageMax ≤ tail.length)
    (noFrame : ∀ start ≤ garbage.length,
      (msgblockCheck false
        ((garbage ++ messageSync :: (blocks.flatten ++ tail)).drop start)).1 ≤ 0) :
    let stream := garbage ++ messageSync :: (blocks.flatten ++ tail)
    (∃ fuel, inputScanner.runFor fuel needSync stream =
      ⟨[], false, blocks.flatten ++ tail⟩) ∧
    (∀ reads : List (List UInt8), reads.flatten = stream →
      (inputEvents needSync reads).items = blocks ++ (inputEvents false [tail]).items) ∧
    (∀ state : FindBlockState, state.needSync = needSync →
      (∃ fuel next, next.needSync = false ∧
        consoleScanner.runFor fuel state stream =
          ⟨[], next, blocks.flatten ++ tail⟩) ∧
      ∀ events, receivedBytes events = stream →
        NeverFull (consoleStart state) events →
        (consoleScanner.settle (consoleEvents (consoleStart state) events)).items =
          blocks ++ (inputEvents false [tail]).items) := by
  have restLong : messageMax ≤ (blocks.flatten ++ tail).length := by
    rw [length_append]
    omega
  have noneValid : NoFrameBefore garbage (blocks.flatten ++ tail) := by
    intro start bounded length verdict
    have checked := noFrame start bounded
    rcases frameAt_eq_valid_iff.mp verdict with ⟨credible, -, rfl, -⟩
    have positive := lt_of_lt_of_le (by decide : 0 < messageMin) credible.1
    rw [msgblockCheck_synced, verdict] at checked
    exact absurd (Int.ofNat_le.mp checked) (Nat.not_le.mpr positive)
  have tailItems : (inputEvents false [tail]).items = (frameScanner.drain false tail).items := by
    simpa using inputEvents_items false [tail]
  rcases runFor_reaches_sync inputScanner id
    (fun needSync buf => (inputEventStep_framing needSync buf).eq_discards) _ restLong garbage
    needSync noneValid with ⟨hostFuel, hostNext, hostSynced, hostReached⟩
  cases hostSynced
  refine ⟨⟨hostFuel, hostReached⟩, ?_, ?_⟩
  · intro reads cut
    rw [inputEvents_items, cut, tailItems]
    exact drain_items_of_reaches_sync inputScanner_refines wellFormed rfl hostReached
  intro state sameSync
  rcases runFor_reaches_sync consoleScanner FindBlockState.needSync
    (fun state buf => (consoleStep_framing state buf).eq_discards) _ restLong garbage state
    noneValid with
    ⟨fuel, next, synced, reached⟩
  refine ⟨⟨fuel, next, synced, reached⟩, ?_⟩
  intro events arrived neverFull
  rw [consoleEvents_items state events neverFull, arrived, tailItems]
  exact drain_items_of_reaches_sync consoleScanner_refines wellFormed synced reached

/-- Garbage that announces a 32-byte frame does not swallow the ack behind it. -/
theorem resynchronisation_false_header :
    let garbage : List UInt8 := [32, 0x15, 7]
    let ack : List UInt8 := [5, 0x10, 158, 129, 0x7e]
    let tail : List UInt8 := replicate 64 0
    ∀ reads : List (List UInt8),
      reads.flatten = garbage ++ messageSync :: ([ack].flatten ++ tail) →
        (inputEvents false reads).items = [ack] ++ (inputEvents false [tail]).items := by
  intro garbage ack tail
  have wellFormed : ∀ block ∈ [ack], WellFormedBlock block := by
    intro block member
    rw [mem_singleton.mp member]
    exact ⟨by decide, by decide⟩
  exact (resynchronisation false garbage [ack] tail wellFormed (by decide) (by decide)).2.1

end CentauriCarbon.Protocol
