import CentauriCarbon.Canvas.CanvasProtocol
import Mathlib.Algebra.Group.Nat.Even
import Mathlib.Data.List.DropRight

/-! # Delivery of frames

Frames that are sent with noise between them are queued unchanged, as long as the receiver is at
rest when each of them begins: a `0x3D` at the end of the noise is taken for the begin of a frame,
and the `0x3D` behind it then for an error.
-/

namespace CentauriCarbon.Canvas

open List

structure Segment where
  noise : List UInt8
  payload : List UInt8

def sentBytes (segments : List Segment) : List UInt8 :=
  segments.flatMap fun segment => segment.noise ++ packShortFrame segment.payload

def NoHeader (noise : List UInt8) : Prop := ¬[0x3D, 0x00] <:+: noise ∧ ¬[0x3D, 0x80] <:+: noise

instance (noise : List UInt8) : Decidable (NoHeader noise) := inferInstanceAs (Decidable (_ ∧ _))

def trailingMagic (noise : List UInt8) : Nat := (noise.rtakeWhile (· == 0x3D)).length

theorem trailingMagic_concat (noise : List UInt8) (byte : UInt8) :
    trailingMagic (noise ++ [byte]) = if byte = 0x3D then trailingMagic noise + 1 else 0 := by
  rw [trailingMagic, rtakeWhile_concat, trailingMagic]
  by_cases magic : byte = 0x3D
  · simp [magic]
  · simp [magic]

theorem getLast_of_trailingMagic (some : trailingMagic noise ≠ 0) :
    ∃ front, noise = front ++ [0x3D] := by
  rcases eq_nil_or_concat noise with rfl | ⟨front, last, rfl⟩
  · exact absurd rfl some
  rw [concat_eq_append, trailingMagic_concat] at some
  by_cases magic : last = 0x3D
  · exact ⟨front, by rw [magic, concat_eq_append]⟩
  · exact absurd (if_neg magic) some

theorem NoHeader.of_concat (quiet : NoHeader (noise ++ [byte])) : NoHeader noise :=
  ⟨fun header => quiet.1 (header.trans (prefix_append _ _).isInfix),
    fun header => quiet.2 (header.trans (prefix_append _ _).isInfix)⟩

theorem NoHeader.ne_flag (quiet : NoHeader (noise ++ [byte])) (some : trailingMagic noise ≠ 0) :
    byte ≠ 0x00 ∧ byte ≠ 0x80 := by
  rcases getLast_of_trailingMagic some with ⟨front, rfl⟩
  have tail : ∀ flag : UInt8, [0x3D, flag] <:+: front ++ [0x3D] ++ [flag] := by
    intro flag
    rw [append_assoc]
    exact (suffix_append _ _).isInfix
  constructor
  · rintro rfl
    exact quiet.1 (tail _)
  · rintro rfl
    exact quiet.2 (tail _)

namespace CanvasProtocol

def atRest (dataLen : Nat) (queue : List (List UInt8)) : CanvasProtocol :=
  ⟨.magic, [], dataLen, queue⟩

def afterMagic (dataLen : Nat) (queue : List (List UInt8)) : CanvasProtocol :=
  ⟨.flag, [0x3D], dataLen, queue⟩

variable (dataLen : Nat) (queue : List (List UInt8))

theorem onCompileData_atRest (byte : UInt8) : (atRest dataLen queue).onCompileData byte =
      some (if byte = 0x3D then afterMagic dataLen queue else atRest dataLen queue) := by
  by_cases magic : byte = 0x3D
  · rw [if_pos magic, magic]
    rfl
  · rw [if_neg magic]
    exact if_neg magic

theorem onCompileData_afterMagic (long : byte ≠ 0x00) (short : byte ≠ 0x80) :
    (afterMagic dataLen queue).onCompileData byte = some (atRest dataLen queue) := by
  change (if byte = 0x00 then _ else if byte = 0x80 then _ else _) = _
  rw [if_neg long, if_neg short]
  rfl

/-- After noise the receiver is at rest if an even number of its last bytes are `0x3D`. -/
theorem runEvents_noise {noise : List UInt8} (quiet : NoHeader noise) :
    runEvents onCompileData (atRest dataLen queue) noise =
      some (if Even (trailingMagic noise) then atRest dataLen queue
        else afterMagic dataLen queue) := by
  induction noise using reverseRecOn with
  | nil => rfl
  | append_singleton noise byte induction =>
    rw [runEvents_append (induction quiet.of_concat), trailingMagic_concat]
    by_cases even : Even (trailingMagic noise)
    · rw [if_pos even, runEvents, onCompileData_atRest]
      by_cases magic : byte = 0x3D
      · rw [if_pos magic, if_pos magic, if_neg (by rwa [Nat.even_add_one, not_not])]
        rfl
      · rw [if_neg magic, if_neg magic]
        rfl
    have some : trailingMagic noise ≠ 0 := by
      rintro zero
      exact even (zero ▸ Even.zero)
    have flag := quiet.ne_flag some
    rw [if_neg even, runEvents, onCompileData_afterMagic _ _ flag.1 flag.2]
    by_cases magic : byte = 0x3D
    · rw [if_pos magic, if_pos (Nat.even_add_one.mpr even)]
      rfl
    · rw [if_neg magic]
      rfl

theorem runEvents_noise_receiveBuffers (quiet : NoHeader noise) :
    ∃ protocol, runEvents onCompileData (atRest dataLen queue) noise = some protocol ∧
      protocol.receiveBuffers = queue := by
  refine ⟨_, runEvents_noise dataLen queue quiet, ?_⟩
  split
  · rfl
  · rfl

/-! ## Frames -/

theorem runEvents_data (before : received.length + bytes.length < dataLen)
    (room : dataLen ≤ recvBufferSize) :
    runEvents onCompileData ⟨.data, received, dataLen, queue⟩ bytes =
      some ⟨.data, received ++ bytes, dataLen, queue⟩ := by
  induction bytes generalizing received with
  | nil => rw [append_nil, runEvents_nil]
  | cons byte bytes induction =>
    rw [length_cons] at before
    have fits : received.length < recvBufferSize := by omega
    have unfinished : (received ++ [byte]).length < dataLen := by
      rw [length_append, length_singleton]
      omega
    rw [runEvents, onCompileData_data fits, finishData_of_lt unfinished, Option.bind_some,
      induction, append_assoc]
    · rfl
    · rw [length_append, length_singleton]
      omega

/-- The last byte of a frame with a correct checksum queues the frame. -/
theorem onCompileData_last (last : received.length + 1 = dataLen) (room : dataLen ≤ recvBufferSize)
    (correct : crcMatches (received ++ [byte])) :
    onCompileData ⟨.data, received, dataLen, queue⟩ byte =
      some (atRest dataLen (queue ++ [received ++ [byte]])) := by
  have fits : received.length < recvBufferSize := by omega
  have length : (received ++ [byte]).length = dataLen := by
    rw [length_append, length_singleton, last]
  rw [onCompileData_data fits, finishData_of_crcMatches length.ge correct,
    take_of_length_le length.le]
  rfl

end CanvasProtocol

def coveredBytes (payload : List UInt8) : List UInt8 :=
  let header := [0x3D, 0x80, UInt8.ofNat (payload.length + 6)]
  header ++ [getCrc8 header] ++ payload

variable (payload : List UInt8)

theorem packShortFrame_eq : packShortFrame payload =
      coveredBytes payload ++ Protocol.crcBytes (getCrc16 (coveredBytes payload)) := rfl

theorem length_coveredBytes : (coveredBytes payload).length = payload.length + 4 := by
  simp [coveredBytes]

theorem crcMatches_append_crcBytes (covered : List UInt8) :
    CanvasProtocol.crcMatches (covered ++ Protocol.crcBytes (getCrc16 covered)) := by
  have length : (covered ++ Protocol.crcBytes (getCrc16 covered)).length =
      covered.length + 2 := length_append
  rw [CanvasProtocol.crcMatches, length, beq_iff_eq]
  simp [Protocol.crcBytes, Protocol.crcOfBytes_crcBytes]

namespace CanvasProtocol

variable (dataLen : Nat) (queue : List (List UInt8))

theorem runEvents_header (length : UInt8) : runEvents onCompileData (atRest dataLen queue)
        ([0x3D, 0x80, length] ++ [getCrc8 [0x3D, 0x80, length]]) =
      some ⟨.data, [0x3D, 0x80, length] ++ [getCrc8 [0x3D, 0x80, length]], length.toNat,
        queue⟩ := by
  have header : runEvents onCompileData (atRest dataLen queue) [0x3D, 0x80, length] =
      some ⟨.crc8, [0x3D, 0x80, length], length.toNat, queue⟩ := rfl
  rw [runEvents_append header, runEvents]
  change (Option.map _ (some _)).bind _ = _
  rw [Option.map_some, if_pos rfl]
  rfl

theorem runEvents_packShortFrame {payload : List UInt8} (small : payload.length ≤ 249) :
    runEvents onCompileData (atRest dataLen queue) (packShortFrame payload) =
      some (atRest (payload.length + 6) (queue ++ [packShortFrame payload])) := by
  have announced : (UInt8.ofNat (payload.length + 6)).toNat = payload.length + 6 := by
    rw [UInt8.toNat_ofNat']
    omega
  have room : payload.length + 6 ≤ recvBufferSize := by
    rw [recvBufferSize]
    omega
  generalize crc : getCrc16 (coveredBytes payload) = sum
  generalize length : UInt8.ofNat (payload.length + 6) = total at announced
  have header := runEvents_header dataLen queue total
  rw [announced] at header
  have split : packShortFrame payload = [0x3D, 0x80, total] ++ [getCrc8 [0x3D, 0x80, total]] ++
      ((payload ++ [(sum >>> 8).toUInt8]) ++ [sum.toUInt8]) := by
    rw [packShortFrame_eq, crc, coveredBytes, Protocol.crcBytes, length]
    simp only [append_assoc]
    rfl
  have correct := crcMatches_append_crcBytes (coveredBytes payload)
  rw [← packShortFrame_eq, split, ← append_assoc] at correct
  rw [split, runEvents_append header, runEvents_append (runEvents_data _ _ _ room), runEvents,
    onCompileData_last _ _ _ room correct]
  · rw [← append_assoc]
    rfl
  · simp
  · simp
    omega

/-- Each frame of a stream is queued if all of them begin with the receiver at rest. -/
theorem runEvents_sentBytes (small : ∀ segment ∈ segments, segment.payload.length ≤ 249)
    (quiet : ∀ segment ∈ segments, NoHeader segment.noise)
    (rests : ∀ segment ∈ segments, Even (trailingMagic segment.noise)) :
    ∃ last, runEvents onCompileData (atRest dataLen queue) (sentBytes segments) =
      some (atRest last (queue ++ segments.map fun segment => packShortFrame segment.payload)) := by
  induction segments generalizing dataLen queue with
  | nil =>
    refine ⟨dataLen, ?_⟩
    rw [map_nil, append_nil]
    rfl
  | cons segment segments induction =>
    rw [forall_mem_cons] at small quiet rests
    have noise := runEvents_noise dataLen queue quiet.1
    rw [if_pos rests.1] at noise
    have frame := runEvents_packShortFrame dataLen queue small.1
    rcases induction (segment.payload.length + 6) (queue ++ [packShortFrame segment.payload])
      small.2 quiet.2 rests.2 with ⟨last, rest⟩
    refine ⟨last, ?_⟩
    rw [append_assoc] at rest
    rw [sentBytes, flatMap_cons, append_assoc, runEvents_append noise, runEvents_append frame]
    exact rest

end CanvasProtocol

/-! ## Payloads -/

theorem getValidData_packShortFrame : getValidData (packShortFrame payload) = some payload := by
  have flag : (packShortFrame payload)[1]? = some 0x80 := rfl
  have length : (packShortFrame payload).length = payload.length + 6 := by
    rw [packShortFrame_eq, length_append, length_coveredBytes]
    rfl
  rw [getValidData, flag, Option.bind_eq_bind, Option.bind_some, if_neg (by decide), if_pos rfl,
    readRange, length, if_pos ⟨by omega, by omega⟩, packShortFrame_eq]
  change some ((take (payload.length + 4) _).drop 4) = _
  rw [← length_coveredBytes, take_left]
  rfl

theorem dispatchedBy_packShortFrame (payloads : List (List UInt8)) :
    dispatchedBy (payloads.map packShortFrame) =
      some (payloads.filter fun payload => !payload.isEmpty) := by
  have all : (payloads.map packShortFrame).mapM getValidData = some payloads := by
    induction payloads with
    | nil => rfl
    | cons payload payloads induction =>
      rw [map_cons, mapM_cons, getValidData_packShortFrame, induction]
      rfl
  rw [dispatchedBy, all, Option.map_some]

/-- `on_parse_data` hands the payloads of the queued frames to `dispatch_command`. -/
theorem foldlM_parseFrame (dispatched : dispatchedBy frames = some payloads)
    (status : CanvasStatus) :
    frames.foldlM parseFrame status = payloads.foldlM CanvasStatus.dispatchCommand status := by
  rcases Option.map_eq_some_iff.mp dispatched with ⟨all, valid, rfl⟩
  clear dispatched
  induction frames generalizing all status with
  | nil =>
    cases valid
    rfl
  | cons frame frames induction =>
    rw [mapM_cons] at valid
    rcases Option.bind_eq_some_iff.mp valid with ⟨payload, first, later⟩
    rcases Option.bind_eq_some_iff.mp later with ⟨payloads, others, joined⟩
    cases joined
    have rest : ∀ status, frames.foldlM parseFrame status =
        (payloads.filter fun data => !data.isEmpty).foldlM
          CanvasStatus.dispatchCommand status := fun status => induction status payloads others
    rw [foldlM_cons, parseFrame, first, filter_cons]
    cases payload with
    | nil => exact rest status
    | cons byte bytes =>
      refine congrArg (Option.bind (status.dispatchCommand (byte :: bytes))) ?_
      exact funext rest

/-- Frames that begin while the receiver is at rest are queued, and their payloads are dispatched;
a frame without payload has nothing to dispatch. -/
theorem sent_frames_delivered (segments : List Segment) (noise : List UInt8)
    (small : ∀ segment ∈ segments, segment.payload.length ≤ 249)
    (quiet : ∀ segment ∈ segments, NoHeader segment.noise) (quietAfter : NoHeader noise)
    (rests : ∀ segment ∈ segments, Even (trailingMagic segment.noise)) :
    ∃ protocol,
      runEvents CanvasProtocol.onCompileData .new (sentBytes segments ++ noise) = some protocol ∧
      protocol.receiveBuffers = segments.map (fun segment => packShortFrame segment.payload) ∧
      dispatchedBy protocol.receiveBuffers =
        some ((segments.map (·.payload)).filter fun payload => !payload.isEmpty) ∧
      ∀ status, protocol.receiveBuffers.foldlM parseFrame status =
        ((segments.map (·.payload)).filter fun payload => !payload.isEmpty).foldlM
          CanvasStatus.dispatchCommand status := by
  rcases CanvasProtocol.runEvents_sentBytes 0 [] small quiet rests with ⟨last, sent⟩
  rcases CanvasProtocol.runEvents_noise_receiveBuffers last
    (segments.map fun segment => packShortFrame segment.payload) quietAfter with
    ⟨protocol, ran, queued⟩
  have frames : segments.map (fun segment => packShortFrame segment.payload) =
      (segments.map (·.payload)).map packShortFrame := by
    rw [map_map]
    rfl
  have dispatched := dispatchedBy_packShortFrame (segments.map (·.payload))
  rw [← frames, ← queued] at dispatched
  exact ⟨protocol, (runEvents_append sent).trans ran, queued, dispatched,
    foldlM_parseFrame dispatched⟩

/-- A request for the version behind three noisy bytes, and an empty frame. -/
theorem sent_request_delivered :
    ∃ protocol,
      runEvents CanvasProtocol.onCompileData .new
        (sentBytes [⟨[0x07, 0x3D, 0x3D], [0x00, 0x02]⟩, ⟨[], []⟩] ++ [0x3D]) = some protocol ∧
      protocol.receiveBuffers = [packShortFrame [0x00, 0x02], packShortFrame []] ∧
      dispatchedBy protocol.receiveBuffers = some [[0x00, 0x02]] ∧
      ∀ status, protocol.receiveBuffers.foldlM parseFrame status =
        [[0x00, 0x02]].foldlM CanvasStatus.dispatchCommand status :=
  sent_frames_delivered [⟨[0x07, 0x3D, 0x3D], [0x00, 0x02]⟩, ⟨[], []⟩] [0x3D] (by decide)
    (by decide) (by decide) (by decide)

/-- A request behind a noisy `0x3D` is lost, and an empty frame is not dispatched. -/
theorem noisy_request_lost :
    NoHeader [0x3D] ∧
      (runEvents CanvasProtocol.onCompileData .new (sentBytes [⟨[0x3D], [0x00, 0x02]⟩])).map
        (·.receiveBuffers) = some [] ∧
      (runEvents CanvasProtocol.onCompileData .new (sentBytes [⟨[], []⟩])).bind
        (fun protocol => dispatchedBy protocol.receiveBuffers) = some [] := by
  decide +kernel

end CentauriCarbon.Canvas
