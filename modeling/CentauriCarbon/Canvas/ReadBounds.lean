import CentauriCarbon.Canvas.CanvasProtocol
import Mathlib.Order.Nat

/-! # Bounds of the receiver

The length of a frame comes from its header. Neither `on_compile_data` nor most of what parses a
frame compares it with anything, so the bounds hold exactly as long as the frames keep to them.
-/

namespace CentauriCarbon.Canvas

open List Option

/-! ## What a frame must have -/

/-- A payload is empty, or it holds a command and what the handler of that reads without asking. -/
def PayloadFits (length : Nat) (command : UInt8) : Prop :=
  length = 0 ∨ 2 ≤ length ∧ (command = 0x7F → 3 + channelNumber * feederDataSize ≤ length)

def FitsBehind (header : Nat) (frame : List UInt8) : Prop :=
  header + 2 ≤ frame.length ∧ PayloadFits (frame.length - (header + 2)) (frame.getD (header + 1) 0)

/-- What is read of the frame is there. Only the two flags are parsed. -/
def Fits (frame : List UInt8) : Prop :=
  match frame[1]? with
  | none => False
  | some flag =>
    if flag = 0x00 then FitsBehind 7 frame else flag = 0x80 → FitsBehind 4 frame

def LongEnough (frame : List UInt8) : Prop :=
  (frame[1]? = some 0x80 → 6 ≤ frame.length) ∧ (frame[1]? = some 0x00 → 9 ≤ frame.length)

theorem mapM_isSome {Item Result : Type} (read : Item → Option Result) (items : List Item) :
    (items.mapM read).isSome ↔ ∀ item ∈ items, (read item).isSome := by
  induction items with
  | nil => simp
  | cons item items induction =>
    rw [mapM_cons, forall_mem_cons, ← induction]
    cases read item with
    | none => simp
    | some result =>
      cases items.mapM read with
      | none => simp
      | some results => simp

theorem readFeeder_isSome (validData : List UInt8) (index : Nat) :
    (CanvasStatus.readFeeder validData index).isSome ↔
      index + feederDataSize ≤ validData.length := by
  constructor
  · intro isSome
    rcases isSome_iff_exists.mp isSome with ⟨feeder, read⟩
    simp only [CanvasStatus.readFeeder, bind_eq_bind, bind_eq_some_iff] at read
    rcases read with ⟨_, _, _, _, _, _, _, _, _, _, _, _, _, _, _, _, _, last, _⟩
    exact (List.getElem?_eq_some_iff.mp last).1
  intro inside
  rw [feederDataSize] at inside
  rw [CanvasStatus.readFeeder]
  simp (disch := omega) only [getElem?_eq_getElem]
  rfl

theorem ofByte_eq_allStatus_iff : CanvasCmd.ofByte byte = some .allStatus ↔ byte = 0x7F := by
  constructor
  · intro decoded
    rcases lookup_eq_some_iff.mp decoded with ⟨before, after, split, _⟩
    have table : ∀ entry ∈ canvasCmdBytes, entry.2 = .allStatus → entry.1 = 0x7F := by decide
    exact table (byte, .allStatus) (by rw [split]; simp) rfl
  · rintro rfl
    rfl

namespace CanvasStatus

variable (status : CanvasStatus) (validData : List UInt8)

theorem parseAllStatus_isSome :
    (status.parseAllStatus validData).isSome ↔
      3 + channelNumber * feederDataSize ≤ validData.length := by
  have channels : ((range channelNumber).mapM fun channel =>
        readFeeder validData (3 + channel * feederDataSize)).isSome = true ↔
      3 + channelNumber * feederDataSize ≤ validData.length := by
    rw [mapM_isSome]
    simp only [readFeeder_isSome, mem_range, channelNumber, feederDataSize]
    constructor
    · intro inside
      exact inside 3 (by decide)
    · intro inside channel bounded
      omega
  rw [← channels, parseAllStatus]
  cases read : (range channelNumber).mapM fun channel =>
      readFeeder validData (3 + channel * feederDataSize) with
  | none =>
    cases validData[2]? with
    | none => rfl
    | some => rfl
  | some feeders =>
    rw [read] at channels
    have inside := channels.mp rfl
    rw [getElem?_eq_getElem (by omega)]
    rfl

theorem dispatchCommand_isSome :
    (status.dispatchCommand validData).isSome ↔
      2 ≤ validData.length ∧
        (validData.getD 1 0 = 0x7F → 3 + channelNumber * feederDataSize ≤ validData.length) := by
  by_cases enough : 2 ≤ validData.length
  · have command : validData[1]? = some (validData.getD 1 0) := by
      rw [getD_eq_getElem?_getD, getElem?_eq_getElem enough, getD_some]
    rw [dispatchCommand, command, bind_eq_bind, bind_some, and_iff_right enough,
      ← ofByte_eq_allStatus_iff]
    split
    next decoded =>
      rw [decoded]
      refine iff_of_true ?_ nofun
      rw [parseSoftwareVersion]
      split
      next enough =>
        rw [readRange, if_pos ⟨by decide, enough⟩]
        rfl
      · rfl
    next decoded =>
      rw [decoded]
      refine iff_of_true ?_ nofun
      rw [parseRfidData]
      split
      next enough =>
        rw [getElem?_eq_getElem (by omega), readRange, readRange,
          if_pos ⟨by decide, by omega⟩, if_pos ⟨by decide, enough⟩, bind_eq_bind, bind_some]
        dsimp only
        split
        · rfl
        · rfl
      · rfl
    next decoded => rw [parseAllStatus_isSome, imp_iff_right decoded]
    next unread => exact iff_of_true rfl fun decoded => absurd decoded unread
  · rw [dispatchCommand, getElem?_eq_none (by omega)]
    exact iff_of_false Bool.false_ne_true fun read => enough read.1

end CanvasStatus

/-- A payload is parsed without a read outside of it exactly if it fits. -/
theorem dispatch_isSome_iff (status : CanvasStatus) (payload : List UInt8) :
    (if payload.isEmpty then some status else status.dispatchCommand payload).isSome = true ↔
      PayloadFits payload.length (payload.getD 1 0) := by
  rw [PayloadFits]
  cases payload with
  | nil => exact iff_of_true rfl (.inl rfl)
  | cons byte bytes =>
    rw [isEmpty_cons, if_neg Bool.false_ne_true, CanvasStatus.dispatchCommand_isSome, length_cons]
    simp

theorem readRange_dispatch_isSome_iff (status : CanvasStatus) (frame : List UInt8)
    (positive : 0 < header) : ((readRange frame header (frame.length - 2)).bind fun payload =>
        if payload.isEmpty then some status else status.dispatchCommand payload).isSome = true ↔
      FitsBehind header frame := by
  by_cases enough : header + 2 ≤ frame.length
  · have length : ((frame.take (frame.length - 2)).drop header).length =
        frame.length - (header + 2) := by
      rw [length_drop, length_take]
      omega
    have command (two : 2 ≤ frame.length - (header + 2)) :
        ((frame.take (frame.length - 2)).drop header).getD 1 0 = frame.getD (header + 1) 0 := by
      rw [getD_eq_getElem?_getD, getElem?_drop, getElem?_take_of_lt (by omega),
        getD_eq_getElem?_getD]
    rw [readRange, if_pos ⟨by omega, by omega⟩, bind_some, dispatch_isSome_iff, length,
      FitsBehind, and_iff_right enough, PayloadFits, PayloadFits]
    by_cases two : 2 ≤ frame.length - (header + 2)
    · rw [command two]
    · tauto
  · rw [readRange, if_neg (by omega), bind_none]
    exact iff_of_false Bool.false_ne_true fun fits => enough fits.1

/-- A frame is parsed without a read outside of it exactly if it fits. -/
theorem parseFrame_isSome (status : CanvasStatus) (frame : List UInt8) :
    (parseFrame status frame).isSome ↔ Fits frame := by
  rw [parseFrame, getValidData, Fits]
  cases frame[1]? with
  | none => exact iff_of_false Bool.false_ne_true id
  | some flag =>
    rw [bind_eq_bind, bind_eq_bind, bind_some]
    dsimp only
    by_cases long : flag = 0x00
    · rw [if_pos long, if_pos long]
      exact readRange_dispatch_isSome_iff status frame (by decide)
    rw [if_neg long, if_neg long]
    by_cases short : flag = 0x80
    · rw [if_pos short, imp_iff_right short]
      exact readRange_dispatch_isSome_iff status frame (by decide)
    · rw [if_neg short]
      exact iff_of_true rfl fun isShort => absurd isShort short

theorem Fits.longEnough (fits : Fits frame) : LongEnough frame := by
  rw [Fits] at fits
  constructor
  · intro flag
    rw [flag] at fits
    exact (fits rfl).1
  · intro flag
    rw [flag] at fits
    exact fits.1

/-! ## Runs -/

structure Safe (canvas : CanvasComm) : Prop where
  recvLength_le : canvas.protocol.recvLength ≤ CanvasProtocol.recvBufferSize
  longEnough : ∀ frame ∈ canvas.protocol.receiveBuffers, LongEnough frame
  readsInside : ∀ frame ∈ canvas.protocol.receiveBuffers, ∀ status,
    (parseFrame status frame).isSome = true

def Completes (protocol : CanvasProtocol) (data : UInt8) : Prop :=
  protocol.canvasFrameFormat = .data ∧ protocol.dataLen ≤ protocol.recvLength + 1 ∧
    CanvasProtocol.crcMatches (protocol.recvBuffer ++ [data]) = true

/-- There is room for a byte of a frame, and a frame that the byte completes fits. -/
def Keeps (canvas : CanvasComm) : CanvasEvent → Prop
  | .receive data =>
    (canvas.protocol.canvasFrameFormat = .data →
      canvas.protocol.recvLength < CanvasProtocol.recvBufferSize) ∧
    (Completes canvas.protocol data →
      Fits ((canvas.protocol.recvBuffer ++ [data]).take canvas.protocol.dataLen))
  | .analysis => True

def headerBytes : CanvasFrameFormat → Nat
  | .magic => 0
  | .flag => 1
  | .seqH | .shortLen => 2
  | .seqL => 3
  | .longLenH => 4
  | .longLenL => 5
  | .crc8 | .data => 6

namespace CanvasProtocol

def InHeader (protocol : CanvasProtocol) : Prop :=
  protocol.canvasFrameFormat = .data ∨ protocol.recvLength ≤ headerBytes protocol.canvasFrameFormat

variable {protocol : CanvasProtocol}

theorem InHeader.room (inHeader : protocol.InHeader)
    (header : protocol.canvasFrameFormat ≠ .data) : protocol.recvLength < recvBufferSize := by
  have few : ∀ format, headerBytes format < recvBufferSize := by
    intro format
    cases format <;> decide
  exact Nat.lt_of_le_of_lt (inHeader.resolve_left header) (few _)

theorem onCompileData_of_header (inHeader : protocol.InHeader)
    (header : protocol.canvasFrameFormat ≠ .data) (data : UInt8) :
    ∃ next, protocol.onCompileData data = some next ∧ next.InHeader ∧
      next.recvLength ≤ recvBufferSize ∧ next.receiveBuffers = protocol.receiveBuffers := by
  have room := inHeader.room header
  have bounded := inHeader.resolve_left header
  have length : (protocol.recvBuffer ++ [data]).length = protocol.recvLength + 1 := length_append
  have stored : ∀ format, protocol.store data format =
      some ⟨format, protocol.recvBuffer ++ [data], protocol.dataLen, protocol.receiveBuffers⟩ :=
    fun _ => if_pos room
  have longer : ∀ format dataLen,
      format = .data ∨ headerBytes protocol.canvasFrameFormat + 1 ≤ headerBytes format →
      ∃ next : CanvasProtocol,
        some (⟨format, protocol.recvBuffer ++ [data], dataLen, protocol.receiveBuffers⟩ :
          CanvasProtocol) = some next ∧
        next.InHeader ∧ next.recvLength ≤ recvBufferSize ∧
        next.receiveBuffers = protocol.receiveBuffers := by
    intro format dataLen next
    refine ⟨_, rfl, next.imp_right fun more => ?_, length.trans_le room, rfl⟩
    exact length.trans_le (le_trans (Nat.succ_le_succ bounded) more)
  rw [onCompileData]
  simp only [stored, map_some]
  generalize protocol.canvasFrameFormat = current at header longer
  cases current with
  | magic =>
    dsimp only
    split
    · exact longer .flag _ (.inr (by decide))
    · exact ⟨_, rfl, .inr (Nat.zero_le _), Nat.zero_le _, rfl⟩
  | flag =>
    dsimp only
    split
    · exact longer .seqH _ (.inr (by decide))
    · split
      · exact longer .shortLen _ (.inr (by decide))
      · exact ⟨_, rfl, .inr (Nat.zero_le _), Nat.zero_le _, rfl⟩
  | seqH => exact longer .seqL _ (.inr (by decide))
  | seqL => exact longer .longLenH _ (.inr (by decide))
  | shortLen | longLenL => exact longer .crc8 _ (.inr (by decide))
  | longLenH => exact longer .longLenL _ (.inr (by decide))
  | crc8 =>
    dsimp only
    split
    · exact longer .data _ (.inl rfl)
    · exact ⟨_, rfl, .inr (Nat.zero_le _), Nat.zero_le _, rfl⟩
  | data => exact absurd rfl header

/-- There is room for the next byte. A header never fills the buffer. -/
def HasRoom (protocol : CanvasProtocol) : Prop :=
  protocol.canvasFrameFormat = .data → protocol.recvLength < recvBufferSize

theorem onCompileData_of_full (data : UInt8) (full : ¬protocol.HasRoom) :
    protocol.onCompileData data = none := by
  rcases Classical.not_imp.mp full with ⟨format, full⟩
  rw [onCompileData, format]
  exact congrArg (Option.map finishData) (if_neg full)

/-- A byte of the data is stored. If it completes a frame, the frame is queued. -/
theorem onCompileData_of_data (data : UInt8) (format : protocol.canvasFrameFormat = .data)
    (room : protocol.recvLength < recvBufferSize) :
    ∃ next, protocol.onCompileData data = some next ∧ next.InHeader ∧
      next.recvLength ≤ recvBufferSize ∧
      (Completes protocol data → next.receiveBuffers =
        protocol.receiveBuffers ++ [(protocol.recvBuffer ++ [data]).take protocol.dataLen]) ∧
      (¬Completes protocol data → next.receiveBuffers = protocol.receiveBuffers) := by
  rcases protocol with ⟨_, received, dataLen, queue⟩
  cases format
  have length : (received ++ [data]).length = received.length + 1 := length_append
  refine ⟨_, onCompileData_data room, ?_⟩
  by_cases finished : dataLen ≤ received.length + 1
  · by_cases correct : crcMatches (received ++ [data])
    · rw [finishData_of_crcMatches (finished.trans_eq length.symm) correct]
      exact ⟨.inr (Nat.zero_le _), Nat.zero_le _, fun _ => rfl,
        fun incomplete => absurd ⟨rfl, finished, correct⟩ incomplete⟩
    · unfold finishData
      rw [if_pos (by exact finished.trans_eq length.symm), if_neg (by exact correct)]
      exact ⟨.inr (Nat.zero_le _), Nat.zero_le _,
        fun completes => absurd completes.2.2 correct, fun _ => rfl⟩
  · rw [finishData_of_lt (length.trans_lt (Nat.lt_of_not_le finished))]
    exact ⟨.inl rfl, length.trans_le room, fun completes => absurd completes.2.1 finished,
      fun _ => rfl⟩

theorem onCompileData_of_hasRoom (inHeader : protocol.InHeader) (data : UInt8)
    (room : protocol.HasRoom) : ∃ next, protocol.onCompileData data = some next ∧ next.InHeader ∧
      next.recvLength ≤ recvBufferSize ∧
      (Completes protocol data → next.receiveBuffers =
        protocol.receiveBuffers ++ [(protocol.recvBuffer ++ [data]).take protocol.dataLen]) ∧
      (¬Completes protocol data → next.receiveBuffers = protocol.receiveBuffers) := by
  by_cases format : protocol.canvasFrameFormat = .data
  · exact onCompileData_of_data data format (room format)
  rcases onCompileData_of_header inHeader format data with ⟨next, stored, header, bounded, same⟩
  exact ⟨next, stored, header, bounded, fun completes => absurd completes.1 format, fun _ => same⟩

end CanvasProtocol

namespace CanvasComm

variable {canvas next : CanvasComm}

theorem inHeader_step (inHeader : canvas.protocol.InHeader)
    (stepped : canvas.step event = some next) : next.protocol.InHeader := by
  cases event with
  | receive data =>
    rcases map_eq_some_iff.mp stepped with ⟨protocol, received, rfl⟩
    by_cases room : canvas.protocol.HasRoom
    · rcases CanvasProtocol.onCompileData_of_hasRoom inHeader data room with
        ⟨next, stored, header, _⟩
      cases received.symm.trans stored
      exact header
    · cases received.symm.trans (CanvasProtocol.onCompileData_of_full data room)
  | analysis =>
    rcases bind_eq_some_iff.mp stepped with ⟨status, parsed, ends⟩
    cases ends
    exact inHeader

section

variable (safe : Safe canvas) (bounded : next.protocol.recvLength ≤ CanvasProtocol.recvBufferSize)
include safe bounded

theorem safe_append_iff
    (queued : next.protocol.receiveBuffers = canvas.protocol.receiveBuffers ++ [frame]) :
    Safe next ↔ Fits frame := by
  constructor
  · intro nextSafe
    have member : frame ∈ next.protocol.receiveBuffers := by
      rw [queued]
      exact mem_append_right _ mem_cons_self
    exact (parseFrame_isSome canvas.status frame).mp (nextSafe.readsInside frame member _)
  intro fits
  refine ⟨bounded, ?_, ?_⟩
  · rw [queued]
    exact forall_mem_append.mpr ⟨safe.longEnough, forall_mem_singleton.mpr fits.longEnough⟩
  rw [queued]
  refine forall_mem_append.mpr ⟨safe.readsInside, forall_mem_singleton.mpr fun status => ?_⟩
  rw [parseFrame_isSome]
  exact fits

end

/-- Frames that are parsed without a read outside of them are all parsed. -/
theorem foldlM_parseFrame_isSome {frames : List (List UInt8)}
    (inside : ∀ frame ∈ frames, ∀ status, (parseFrame status frame).isSome)
    (status : CanvasStatus) : ∃ parsed, frames.foldlM parseFrame status = some parsed := by
  induction frames generalizing status with
  | nil => exact ⟨status, rfl⟩
  | cons frame frames induction =>
    rw [forall_mem_cons] at inside
    rcases isSome_iff_exists.mp (inside.1 status) with ⟨next, parsed⟩
    rw [foldlM_cons, parsed]
    exact induction inside.2 next

/-- What is kept says exactly when a byte or a pass leaves the receiver safe. -/
theorem keeps_iff (event : CanvasEvent) (inHeader : canvas.protocol.InHeader) (safe : Safe canvas) :
    Keeps canvas event ↔ ∃ next, canvas.step event = some next ∧ Safe next := by
  cases event with
  | receive data =>
    by_cases room : canvas.protocol.HasRoom
    · rcases CanvasProtocol.onCompileData_of_hasRoom inHeader data room with
        ⟨protocol, stored, _, bounded, complete, incomplete⟩
      have stepped : canvas.step (.receive data) = some { canvas with protocol } := by
        rw [step, stored, map_some]
      rw [Keeps, and_iff_right (fun format => room format), stepped]
      by_cases completes : Completes canvas.protocol data
      · have exactly : Safe { canvas with protocol } ↔ Fits _ :=
          safe_append_iff safe bounded (complete completes)
        rw [imp_iff_right completes, ← exactly]
        simp
      · have kept : Safe { canvas with protocol } :=
          ⟨bounded, incomplete completes ▸ safe.longEnough, incomplete completes ▸ safe.readsInside⟩
        exact iff_of_true (fun done => absurd done completes) ⟨_, rfl, kept⟩
    · rw [step, CanvasProtocol.onCompileData_of_full data room]
      refine iff_of_false (fun keeps => room keeps.1) ?_
      rintro ⟨next, impossible, _⟩
      cases impossible
  | analysis =>
    rcases foldlM_parseFrame_isSome safe.readsInside canvas.status with ⟨status, parsed⟩
    refine iff_of_true trivial
      ⟨⟨{ canvas.protocol with receiveBuffers := [] }, status⟩, ?_, safe.recvLength_le, ?_, ?_⟩
    · rw [step, onParseData, parsed]
      rfl
    · exact forall_mem_nil _
    · exact forall_mem_nil _

end CanvasComm

/-- The receiver stores no byte outside of its buffer, and reads none outside of a frame, exactly
in the runs in which no announced length exceeds the buffer when it fills, and every frame that is
completed fits. -/
theorem receiver_safe_iff (status : CanvasStatus) (events : List CanvasEvent) :
    RunMeets CanvasComm.step Keeps ⟨.new, status⟩ events ↔
      ∀ done, done <+: events →
        ∃ canvas, runEvents CanvasComm.step ⟨.new, status⟩ done = some canvas ∧ Safe canvas :=
  runMeets_iff_defined (fun _ _ _ => CanvasComm.inHeader_step)
    (fun _ event => CanvasComm.keeps_iff event) (.inr (Nat.le_refl 0))
    ⟨Nat.zero_le _, forall_mem_nil _, forall_mem_nil _⟩

/-- A status frame without the data of the channels is queued, and then read beyond its end. -/
theorem short_status_read_outside :
    (runEvents CanvasComm.step ⟨.new, .new⟩
        ((packShortFrame [0x00, 0x7F]).map .receive)).map (·.protocol.receiveBuffers) =
      some [packShortFrame [0x00, 0x7F]] ∧
    runEvents CanvasComm.step ⟨.new, .new⟩
      ((packShortFrame [0x00, 0x7F]).map .receive ++ [.analysis]) = none := by
  decide +kernel

end CentauriCarbon.Canvas
