import CentauriCarbon.Protocol.MsgblockCheck

/-! # Micro-controller framing

`command_find_block` with its static `sync_state` and `next_sequence`, and the way
`console_task` calls it on the receive buffer. As far as recognising frames goes it
refines the same `frameScanner` as the host, although it tests `CF_NEED_SYNC` before
the buffer length and treats a leading SYNC on its own.
-/

namespace CentauriCarbon.Protocol

structure FindBlockState where
  needSync : Bool
  needValid : Bool
  nextSequence : UInt8

def FindBlockState.initial : FindBlockState := ⟨false, false, messageDest⟩

/-- The ways out of `command_find_block`. A `found` block goes to
`command_dispatch`; an `outOfSequence` block passed every check but its sequence
number and is answered by a nak; `discarded` bytes are answered by a nak only when
they are the first since the last valid block. -/
inductive FindBlockExit where
  | needMoreData
  | found (msglen : Nat)
  | outOfSequence (msglen : Nat)
  | discarded (count : Nat) (nak : Bool)
  deriving DecidableEq

namespace FindBlockExit

def popCount : FindBlockExit → Nat
  | needMoreData => 0
  | found msglen => msglen
  | outOfSequence msglen => msglen
  | discarded count _ => count

def sendsNak : FindBlockExit → Bool
  | needMoreData => false
  | found _ => false
  | outOfSequence _ => true
  | discarded _ nak => nak

def recognised (buf : List UInt8) : FindBlockExit → List (List UInt8)
  | needMoreData => []
  | found msglen => [buf.take msglen]
  | outOfSequence msglen => [buf.take msglen]
  | discarded _ _ => []

end FindBlockExit

variable (state : FindBlockState) (buf : List UInt8)

def findBlockNeedSync : FindBlockExit × FindBlockState :=
  let (popCount, needSync) := match buf.idxOf? messageSync with
    | some index => (index + 1, false)
    | none => (buf.length, state.needSync)
  (.discarded popCount (!state.needValid),
    { state with needSync, needValid := true })

/-- The label `error`: a leading SYNC byte is ignored without a nak. -/
def findBlockError : FindBlockExit × FindBlockState :=
  if buf.getD 0 0 = messageSync then (.discarded 1 false, state)
  else findBlockNeedSync { state with needSync := true } buf

def sequenceAfter (msgseq : UInt8) : UInt8 := ((msgseq + 1) &&& messageSeqMask) ||| messageDest

def commandFindBlock : FindBlockExit × FindBlockState :=
  if buf.length ≠ 0 ∧ state.needSync then findBlockNeedSync state buf
  else if buf.length < messageMin then (.needMoreData, state)
  else
    let msglen := (buf.getD messagePosLen 0).toNat
    if msglen < messageMin ∨ msglen > messageMax then findBlockError state buf
    else
      let msgseq := buf.getD messagePosSeq 0
      if msgseq &&& ~~~messageSeqMask ≠ messageDest then findBlockError state buf
      else if buf.length < msglen then (.needMoreData, state)
      else if buf.getD (msglen - messageTrailerSync) 0 ≠ messageSync then
        findBlockError state buf
      else
        let msgcrc := crcOfBytes (buf.getD (msglen - messageTrailerCrc) 0)
          (buf.getD (msglen - messageTrailerCrc + 1) 0)
        let crc := crc16Ccitt (buf.take (msglen - messageTrailerSize))
        if crc ≠ msgcrc then findBlockError state buf
        else if msgseq ≠ state.nextSequence then
          (.outOfSequence msglen, { state with needValid := false })
        else
          (.found msglen,
            { state with needValid := false, nextSequence := sequenceAfter msgseq })

def checkSequence : FindBlockExit × FindBlockState :=
  if buf.getD messagePosSeq 0 ≠ state.nextSequence then
    (.outOfSequence (frameLength buf), { state with needValid := false })
  else
    (.found (frameLength buf),
      { state with needValid := false, nextSequence := sequenceAfter (buf.getD messagePosSeq 0) })

variable {state : FindBlockState} {buf : List UInt8}

theorem commandFindBlock_hunting (nonempty : buf ≠ []) (needSync : state.needSync) :
    commandFindBlock state buf = findBlockNeedSync state buf := by
  have positive : buf.length ≠ 0 := by simpa using nonempty
  rw [commandFindBlock, if_pos ⟨positive, needSync⟩]

/-- In sync, the function takes exactly the decision that framing prescribes. -/
theorem commandFindBlock_synced (synced : state.needSync = false) (buf : List UInt8) :
    commandFindBlock state buf =
      match frameAt buf with
      | .incomplete => (.needMoreData, state)
      | .valid _ => checkSequence state buf
      | .invalid => findBlockError state buf := by
  rw [commandFindBlock, if_neg (by simp [synced])]
  by_cases short : buf.length < messageMin
  · rw [if_pos short, frameAt_of_short short]
  · rw [if_neg short]
    exact frameTests_eq (.needMoreData, state) (findBlockError state buf)
      (fun _ => checkSequence state buf) short

/-! ## Exits in terms of framing -/

/-- A block with the right checksum is taken, whatever its sequence number. -/
theorem checkSequence_spec (state : FindBlockState) (buf : List UInt8) :
    (checkSequence state buf).1 ≠ .needMoreData ∧
      (checkSequence state buf).1.popCount = frameLength buf ∧
      (checkSequence state buf).1.recognised buf = [buf.take (frameLength buf)] ∧
      (checkSequence state buf).2.needSync = state.needSync := by
  unfold checkSequence
  split <;> exact ⟨nofun, rfl, rfl, rfl⟩

/-- Hunting on the micro-controller drops the bytes that the host would drop. -/
theorem findBlockNeedSync_discards (buf : List UInt8) (needSync : state.needSync) :
    ∃ nak, (findBlockNeedSync state buf).1 =
        .discarded (discardStep buf).consumed nak ∧
      (findBlockNeedSync state buf).2.needSync = (discardStep buf).next := by
  unfold findBlockNeedSync discardStep
  cases buf.idxOf? messageSync with
  | none => exact ⟨_, rfl, needSync⟩
  | some index => exact ⟨_, rfl, rfl⟩

/-- The special case for a leading SYNC drops the same byte that hunting from the
frame's own first byte would. -/
theorem findBlockError_discards (synced : state.needSync = false) (nonempty : buf ≠ []) :
    ∃ nak, (findBlockError state buf).1 =
        .discarded (discardStep buf).consumed nak ∧
      (findBlockError state buf).2.needSync = (discardStep buf).next := by
  unfold findBlockError
  by_cases leading : buf.getD 0 0 = messageSync
  · rw [if_pos leading]
    cases buf with
    | nil => exact absurd rfl nonempty
    | cons byte rest =>
      have isSync : byte = messageSync := leading
      have front : (byte :: rest).idxOf? messageSync = some 0 := by
        simp [List.idxOf?_cons, isSync]
      refine ⟨false, ?_, ?_⟩ <;> simp [discardStep, front, synced]
  · rw [if_neg leading]
    exact findBlockNeedSync_discards buf rfl

/-! ## The receive buffer -/

def consoleStep (state : FindBlockState) (buf : List UInt8) :
    Option (ScanStep FindBlockState (List UInt8)) :=
  match commandFindBlock state buf with
  | (.needMoreData, _) => none
  | (blockExit, next) => some ⟨blockExit.popCount, next, blockExit.recognised buf⟩

theorem consoleStep_of_exit (found : commandFindBlock state buf = result)
    (productive : result.1 ≠ .needMoreData) :
    consoleStep state buf = some ⟨result.1.popCount, result.2, result.1.recognised buf⟩ := by
  rcases result with ⟨blockExit, next⟩
  unfold consoleStep
  rw [found]
  cases blockExit <;> first | exact absurd rfl productive | rfl

theorem consoleStep_framing (state : FindBlockState) (buf : List UInt8) :
    FramingStep FindBlockState.needSync state buf (consoleStep state buf) := by
  by_cases empty : buf = []
  · subst empty
    have waits : consoleStep state [] = none := by
      simp [consoleStep, commandFindBlock, messageMin]
    rw [waits]
    exact .waits (.inl (by decide))
  cases needSync : state.needSync with
  | true =>
    rcases findBlockNeedSync_discards buf needSync with ⟨nak, discards, nextSync⟩
    have found := commandFindBlock_hunting empty needSync
    rw [consoleStep_of_exit found (by simp [discards]), discards]
    exact .discards empty (.inl needSync) nextSync
  | false =>
    have found := commandFindBlock_synced needSync buf
    cases verdict : frameAt buf with
    | incomplete =>
      have waits : consoleStep state buf = none := by
        simp [consoleStep, found, verdict]
      rw [waits]
      exact .waits (.inr ⟨needSync, verdict⟩)
    | valid length =>
      rcases frameAt_eq_valid_iff.mp verdict with ⟨-, -, rfl, -⟩
      rw [verdict] at found
      rcases checkSequence_spec state buf with ⟨exits, popCount, recognised, sameSync⟩
      rw [consoleStep_of_exit found exits, popCount, recognised]
      exact .takes needSync verdict (sameSync.trans needSync)
    | invalid =>
      rcases findBlockError_discards needSync empty with ⟨nak, discards, nextSync⟩
      rw [verdict] at found
      rw [consoleStep_of_exit found (by simp [discards]), discards]
      exact .discards empty (.inr verdict) nextSync

/-- The micro-controller's receiver as a scanner. Its items are the blocks that
passed the checksum test, accepted or not. -/
def consoleScanner : Scanner FindBlockState UInt8 (List UInt8) where
  step := consoleStep
  consumed_pos := (consoleStep_framing _ _).consumed_pos
  consumed_le := (consoleStep_framing _ _).consumed_le

theorem consoleScanner_refines : consoleScanner.Refines frameScanner FindBlockState.needSync where
  waits state buf := (consoleStep_framing state buf).drain_waits
  steps state buf _ := (consoleStep_framing state buf).drain_steps

def rxBufferSize : Nat := 192

inductive ConsoleEvent where
  | serialRxByte (data : UInt8)
  | consoleTask

/-- `serial_rx_byte` drops data that finds the buffer full; `console_task` makes
one call of `command_find_block` and pops what it asks for. -/
def consoleEvent (session : ScanSession FindBlockState UInt8 (List UInt8)) :
    ConsoleEvent → ScanSession FindBlockState UInt8 (List UInt8)
  | .serialRxByte data =>
    if session.buffer.length ≥ rxBufferSize then session
    else Scanner.receive session [data]
  | .consoleTask => consoleScanner.poll session

def consoleStart (state : FindBlockState) :
    ScanSession FindBlockState UInt8 (List UInt8) := ⟨[], state, []⟩

def consoleEvents (session : ScanSession FindBlockState UInt8 (List UInt8))
    (events : List ConsoleEvent) : ScanSession FindBlockState UInt8 (List UInt8) :=
  events.foldl consoleEvent session

def receivedBytes : List ConsoleEvent → List UInt8
  | [] => []
  | .serialRxByte data :: events => data :: receivedBytes events
  | .consoleTask :: events => receivedBytes events

/-- No byte of the run finds the receive buffer full. -/
def NeverFull : ScanSession FindBlockState UInt8 (List UInt8) → List ConsoleEvent → Prop
  | _, [] => True
  | session, .serialRxByte data :: events =>
    session.buffer.length < rxBufferSize ∧
      NeverFull (consoleEvent session (.serialRxByte data)) events
  | session, .consoleTask :: events =>
    NeverFull (consoleEvent session .consoleTask) events

instance neverFullDecidable :
    ∀ (session : ScanSession FindBlockState UInt8 (List UInt8))
      (events : List ConsoleEvent), Decidable (NeverFull session events)
  | _, [] => isTrue trivial
  | session, .serialRxByte data :: events =>
    have := neverFullDecidable (consoleEvent session (.serialRxByte data)) events
    inferInstanceAs (Decidable (_ ∧ _))
  | session, .consoleTask :: events =>
    neverFullDecidable (consoleEvent session .consoleTask) events

theorem consoleEvents_agrees (session : ScanSession FindBlockState UInt8 (List UInt8))
    (events : List ConsoleEvent) (neverFull : NeverFull session events)
    (agrees : frameScanner.Agrees FindBlockState.needSync start stream session) :
    frameScanner.Agrees FindBlockState.needSync start
      (stream ++ receivedBytes events) (consoleEvents session events) := by
  induction events generalizing session stream with
  | nil => simpa [receivedBytes, consoleEvents] using agrees
  | cons event events induction =>
    cases event with
    | serialRxByte data =>
      have stored :
          consoleEvent session (.serialRxByte data) = Scanner.receive session [data] :=
        if_neg (Nat.not_le.mpr neverFull.1)
      have next := induction _ neverFull.2 (stored ▸ agrees.receive frameScanner_stable [data])
      simpa [receivedBytes, consoleEvents] using next
    | consoleTask =>
      exact induction _ neverFull (agrees.poll consoleScanner_refines)

/-- Any run without overflow, followed by enough calls of `console_task`, has
recognised the frames of all bytes received. -/
theorem consoleEvents_items (state : FindBlockState) (events : List ConsoleEvent)
    (neverFull : NeverFull (consoleStart state) events) :
    (consoleScanner.settle (consoleEvents (consoleStart state) events)).items =
      (frameScanner.drain state.needSync (receivedBytes events)).items := by
  have initially : frameScanner.Agrees FindBlockState.needSync state.needSync []
      (consoleStart state) := rfl
  have agrees := consoleEvents_agrees (consoleStart state) events neverFull initially
  exact (agrees.settle consoleScanner_refines).items_eq consoleScanner_refines
    (Scanner.step_settle consoleScanner _)

end CentauriCarbon.Protocol
