import CentauriCarbon.Foundation.EventRun
import CentauriCarbon.Protocol.Message

/-! # The link of the filament changer

`CanvasProtocol` receives frames byte by byte on one thread and parses the queued ones on another.
A short frame is `0x3D 0x80`, its length, a checksum of the header, a payload and a checksum of
everything before it. A long frame is `0x3D 0x00` with a sequence number and two length bytes.
-/

namespace CentauriCarbon.Canvas

inductive CanvasFrameFormat where
  | magic
  | flag
  | seqH
  | seqL
  | shortLen
  | longLenH
  | longLenL
  | crc8
  | data
  deriving DecidableEq

def crc8Table : List UInt8 :=
  [0x00, 0x39, 0x72, 0x4B, 0xE4, 0xDD, 0x96, 0xAF, 0xF1, 0xC8, 0x83, 0xBA, 0x15, 0x2C, 0x67, 0x5E,
   0xDB, 0xE2, 0xA9, 0x90, 0x3F, 0x06, 0x4D, 0x74, 0x2A, 0x13, 0x58, 0x61, 0xCE, 0xF7, 0xBC, 0x85,
   0x8F, 0xB6, 0xFD, 0xC4, 0x6B, 0x52, 0x19, 0x20, 0x7E, 0x47, 0x0C, 0x35, 0x9A, 0xA3, 0xE8, 0xD1,
   0x54, 0x6D, 0x26, 0x1F, 0xB0, 0x89, 0xC2, 0xFB, 0xA5, 0x9C, 0xD7, 0xEE, 0x41, 0x78, 0x33, 0x0A,
   0x27, 0x1E, 0x55, 0x6C, 0xC3, 0xFA, 0xB1, 0x88, 0xD6, 0xEF, 0xA4, 0x9D, 0x32, 0x0B, 0x40, 0x79,
   0xFC, 0xC5, 0x8E, 0xB7, 0x18, 0x21, 0x6A, 0x53, 0x0D, 0x34, 0x7F, 0x46, 0xE9, 0xD0, 0x9B, 0xA2,
   0xA8, 0x91, 0xDA, 0xE3, 0x4C, 0x75, 0x3E, 0x07, 0x59, 0x60, 0x2B, 0x12, 0xBD, 0x84, 0xCF, 0xF6,
   0x73, 0x4A, 0x01, 0x38, 0x97, 0xAE, 0xE5, 0xDC, 0x82, 0xBB, 0xF0, 0xC9, 0x66, 0x5F, 0x14, 0x2D,
   0x4E, 0x77, 0x3C, 0x05, 0xAA, 0x93, 0xD8, 0xE1, 0xBF, 0x86, 0xCD, 0xF4, 0x5B, 0x62, 0x29, 0x10,
   0x95, 0xAC, 0xE7, 0xDE, 0x71, 0x48, 0x03, 0x3A, 0x64, 0x5D, 0x16, 0x2F, 0x80, 0xB9, 0xF2, 0xCB,
   0xC1, 0xF8, 0xB3, 0x8A, 0x25, 0x1C, 0x57, 0x6E, 0x30, 0x09, 0x42, 0x7B, 0xD4, 0xED, 0xA6, 0x9F,
   0x1A, 0x23, 0x68, 0x51, 0xFE, 0xC7, 0x8C, 0xB5, 0xEB, 0xD2, 0x99, 0xA0, 0x0F, 0x36, 0x7D, 0x44,
   0x69, 0x50, 0x1B, 0x22, 0x8D, 0xB4, 0xFF, 0xC6, 0x98, 0xA1, 0xEA, 0xD3, 0x7C, 0x45, 0x0E, 0x37,
   0xB2, 0x8B, 0xC0, 0xF9, 0x56, 0x6F, 0x24, 0x1D, 0x43, 0x7A, 0x31, 0x08, 0xA7, 0x9E, 0xD5, 0xEC,
   0xE6, 0xDF, 0x94, 0xAD, 0x02, 0x3B, 0x70, 0x49, 0x17, 0x2E, 0x65, 0x5C, 0xF3, 0xCA, 0x81, 0xB8,
   0x3D, 0x04, 0x4F, 0x76, 0xD9, 0xE0, 0xAB, 0x92, 0xCC, 0xF5, 0xBE, 0x87, 0x28, 0x11, 0x5A, 0x63]

def crc16Table : List UInt16 :=
  [0x0000, 0x1021, 0x2042, 0x3063, 0x4084, 0x50A5, 0x60C6, 0x70E7,
   0x8108, 0x9129, 0xA14A, 0xB16B, 0xC18C, 0xD1AD, 0xE1CE, 0xF1EF,
   0x1231, 0x0210, 0x3273, 0x2252, 0x52B5, 0x4294, 0x72F7, 0x62D6,
   0x9339, 0x8318, 0xB37B, 0xA35A, 0xD3BD, 0xC39C, 0xF3FF, 0xE3DE,
   0x2462, 0x3443, 0x0420, 0x1401, 0x64E6, 0x74C7, 0x44A4, 0x5485,
   0xA56A, 0xB54B, 0x8528, 0x9509, 0xE5EE, 0xF5CF, 0xC5AC, 0xD58D,
   0x3653, 0x2672, 0x1611, 0x0630, 0x76D7, 0x66F6, 0x5695, 0x46B4,
   0xB75B, 0xA77A, 0x9719, 0x8738, 0xF7DF, 0xE7FE, 0xD79D, 0xC7BC,
   0x48C4, 0x58E5, 0x6886, 0x78A7, 0x0840, 0x1861, 0x2802, 0x3823,
   0xC9CC, 0xD9ED, 0xE98E, 0xF9AF, 0x8948, 0x9969, 0xA90A, 0xB92B,
   0x5AF5, 0x4AD4, 0x7AB7, 0x6A96, 0x1A71, 0x0A50, 0x3A33, 0x2A12,
   0xDBFD, 0xCBDC, 0xFBBF, 0xEB9E, 0x9B79, 0x8B58, 0xBB3B, 0xAB1A,
   0x6CA6, 0x7C87, 0x4CE4, 0x5CC5, 0x2C22, 0x3C03, 0x0C60, 0x1C41,
   0xEDAE, 0xFD8F, 0xCDEC, 0xDDCD, 0xAD2A, 0xBD0B, 0x8D68, 0x9D49,
   0x7E97, 0x6EB6, 0x5ED5, 0x4EF4, 0x3E13, 0x2E32, 0x1E51, 0x0E70,
   0xFF9F, 0xEFBE, 0xDFDD, 0xCFFC, 0xBF1B, 0xAF3A, 0x9F59, 0x8F78,
   0x9188, 0x81A9, 0xB1CA, 0xA1EB, 0xD10C, 0xC12D, 0xF14E, 0xE16F,
   0x1080, 0x00A1, 0x30C2, 0x20E3, 0x5004, 0x4025, 0x7046, 0x6067,
   0x83B9, 0x9398, 0xA3FB, 0xB3DA, 0xC33D, 0xD31C, 0xE37F, 0xF35E,
   0x02B1, 0x1290, 0x22F3, 0x32D2, 0x4235, 0x5214, 0x6277, 0x7256,
   0xB5EA, 0xA5CB, 0x95A8, 0x8589, 0xF56E, 0xE54F, 0xD52C, 0xC50D,
   0x34E2, 0x24C3, 0x14A0, 0x0481, 0x7466, 0x6447, 0x5424, 0x4405,
   0xA7DB, 0xB7FA, 0x8799, 0x97B8, 0xE75F, 0xF77E, 0xC71D, 0xD73C,
   0x26D3, 0x36F2, 0x0691, 0x16B0, 0x6657, 0x7676, 0x4615, 0x5634,
   0xD94C, 0xC96D, 0xF90E, 0xE92F, 0x99C8, 0x89E9, 0xB98A, 0xA9AB,
   0x5844, 0x4865, 0x7806, 0x6827, 0x18C0, 0x08E1, 0x3882, 0x28A3,
   0xCB7D, 0xDB5C, 0xEB3F, 0xFB1E, 0x8BF9, 0x9BD8, 0xABBB, 0xBB9A,
   0x4A75, 0x5A54, 0x6A37, 0x7A16, 0x0AF1, 0x1AD0, 0x2AB3, 0x3A92,
   0xFD2E, 0xED0F, 0xDD6C, 0xCD4D, 0xBDAA, 0xAD8B, 0x9DE8, 0x8DC9,
   0x7C26, 0x6C07, 0x5C64, 0x4C45, 0x3CA2, 0x2C83, 0x1CE0, 0x0CC1,
   0xEF1F, 0xFF3E, 0xCF5D, 0xDF7C, 0xAF9B, 0xBFBA, 0x8FD9, 0x9FF8,
   0x6E17, 0x7E36, 0x4E55, 0x5E74, 0x2E93, 0x3EB2, 0x0ED1, 0x1EF0]

def crc8Init : UInt8 := 0x66
def crc16Init : UInt16 := 0x913D

def getCrc8 (data : List UInt8) : UInt8 :=
  data.foldl (fun crc byte => crc8Table.getD (crc ^^^ byte).toNat 0) crc8Init

def getCrc16 (data : List UInt8) : UInt16 :=
  data.foldl
    (fun crc byte =>
      (crc <<< 8) ^^^ crc16Table.getD ((crc >>> 8).toUInt8 ^^^ byte).toNat 0)
    crc16Init

/-! ## Receiving -/

structure CanvasProtocol where
  canvasFrameFormat : CanvasFrameFormat
  /-- The first `recv_length` bytes of `recv_buffer`. -/
  recvBuffer : List UInt8
  dataLen : Nat
  receiveBuffers : List (List UInt8)

namespace CanvasProtocol

def recvBufferSize : Nat := 1024

def new : CanvasProtocol where
  canvasFrameFormat := .magic
  recvBuffer := []
  dataLen := 0
  receiveBuffers := []

variable (protocol : CanvasProtocol)

def recvLength : Nat := protocol.recvBuffer.length

/-- A byte is stored behind those received. There is no byte behind the buffer to store it in. -/
def store (data : UInt8) (next : CanvasFrameFormat) : Option CanvasProtocol :=
  if protocol.recvLength < recvBufferSize then
    some { protocol with canvasFrameFormat := next, recvBuffer := protocol.recvBuffer ++ [data] }
  else none

def restart : CanvasProtocol :=
  { protocol with canvasFrameFormat := .magic, recvBuffer := [] }

def setReceiveData (length : Nat) : CanvasProtocol :=
  { protocol with receiveBuffers := protocol.receiveBuffers ++ [protocol.recvBuffer.take length] }

def crcMatches (received : List UInt8) : Bool :=
  Protocol.crcOfBytes (received.getD (received.length - 2) 0)
      (received.getD (received.length - 1) 0) ==
    getCrc16 (received.take (received.length - 2))

def finishData : CanvasProtocol :=
  if protocol.dataLen ≤ protocol.recvLength then
    (if crcMatches protocol.recvBuffer then protocol.setReceiveData protocol.dataLen
      else protocol).restart
  else protocol

/-- One byte is received; there is no next state if it is stored outside of the buffer. -/
def onCompileData (data : UInt8) : Option CanvasProtocol :=
  match protocol.canvasFrameFormat with
  | .magic => if data = 0x3D then protocol.store data .flag else some protocol.restart
  | .flag =>
    if data = 0x00 then protocol.store data .seqH
    else if data = 0x80 then protocol.store data .shortLen
    else some protocol.restart
  | .seqH => protocol.store data .seqL
  | .seqL => protocol.store data .longLenH
  | .shortLen =>
    (protocol.store data .crc8).map fun protocol => { protocol with dataLen := data.toNat }
  | .longLenH => protocol.store data .longLenL
  | .longLenL =>
    (protocol.store data .crc8).map fun protocol =>
      { protocol with
        dataLen := (protocol.recvBuffer.getD 4 0).toNat * 256 +
          (protocol.recvBuffer.getD 5 0).toNat }
  | .crc8 =>
    (protocol.store data .data).map fun stored =>
      if getCrc8 protocol.recvBuffer = data then stored else stored.restart
  | .data => (protocol.store data .data).map finishData

variable {received : List UInt8} {dataLen : Nat}

theorem onCompileData_data (room : received.length < recvBufferSize) :
    onCompileData ⟨.data, received, dataLen, queue⟩ data =
      some (finishData ⟨.data, received ++ [data], dataLen, queue⟩) :=
  congrArg (Option.map finishData) (if_pos room)

theorem finishData_of_lt (unfinished : received.length < dataLen) :
    finishData ⟨.data, received, dataLen, queue⟩ = ⟨.data, received, dataLen, queue⟩ :=
  if_neg (Nat.not_le.mpr unfinished)

theorem finishData_of_crcMatches (finished : dataLen ≤ received.length)
    (correct : crcMatches received) : finishData ⟨.data, received, dataLen, queue⟩ =
      ⟨.magic, [], dataLen, queue ++ [received.take dataLen]⟩ :=
  (if_pos finished).trans (congrArg restart (if_pos correct))

end CanvasProtocol

def packShortFrame (data : List UInt8) : List UInt8 :=
  let frameLength := UInt8.ofNat (data.length + 6)
  let header := [0x3D, 0x80, frameLength]
  let frame := header ++ [getCrc8 header] ++ data
  frame ++ Protocol.crcBytes (getCrc16 frame)

/-! ## Parsing -/

def channelNumber : Nat := 4
def feederDataSize : Nat := 9

inductive CanvasCmd where
  | connectStatus
  | hardwareVersion
  | softwareVersion
  | filamentPlugIn
  | odoValue
  | encoderStatus
  | motorStatus
  | rfidData
  | allStatus
  | ledControl
  | beeperControl
  | feederStop
  | filaCtrl
  | filaCtrlSingle
  | filaCtrlReachAck
  | filaCtrlBothAck
  | rockerCtrl
  deriving DecidableEq

def canvasCmdBytes : List (UInt8 × CanvasCmd) :=
  [(0x00, .connectStatus), (0x01, .hardwareVersion), (0x02, .softwareVersion),
    (0x04, .filamentPlugIn), (0x08, .odoValue), (0x10, .encoderStatus),
    (0x20, .motorStatus), (0x40, .rfidData), (0x7F, .allStatus),
    (0x81, .ledControl), (0x82, .beeperControl), (0x90, .feederStop),
    (0x91, .filaCtrl), (0x92, .filaCtrlSingle), (0x93, .filaCtrlReachAck),
    (0x94, .filaCtrlBothAck), (0xA0, .rockerCtrl)]

def CanvasCmd.ofByte (byte : UInt8) : Option CanvasCmd := canvasCmdBytes.lookup byte

structure FeederStatus where
  feedersStatus : UInt8
  chPosition : UInt32
  chFilaMoveDist : UInt32
  filaAbnormal : UInt8
  dragging : UInt8
  dragCompensateError : UInt8
  motorSlip : UInt8
  motorCrtlErr : UInt8
  filaIn : UInt8
  motorFault : UInt8

def FeederStatus.zero : FeederStatus := ⟨0, 0, 0, 0, 0, 0, 0, 0, 0, 0⟩

structure RfidData where
  uid : UInt64
  data : List UInt8

structure CanvasStatus where
  status : UInt8
  feeders : List FeederStatus
  softwareVersion : List UInt8
  rfidData : Option RfidData
  canvasLiteStatus : List UInt8
  isBootInit : Bool
  readSoftwareVersionBlock : Bool
  readRfidDataBlock : Bool
  readFeedersStatusBlock : Bool

def readRange (data : List UInt8) (first last : Nat) : Option (List UInt8) :=
  if first ≤ last ∧ last ≤ data.length then some ((data.take last).drop first) else none

namespace CanvasStatus

def new : CanvasStatus where
  status := 0
  feeders := List.replicate channelNumber .zero
  softwareVersion := []
  rfidData := none
  canvasLiteStatus := List.replicate channelNumber 0
  isBootInit := false
  readSoftwareVersionBlock := false
  readRfidDataBlock := false
  readFeedersStatusBlock := false

variable (status : CanvasStatus) (validData : List UInt8)

def parseSoftwareVersion :
    Option CanvasStatus := do
  let softwareVersion ←
    if 13 ≤ validData.length then readRange validData 2 (2 + 11) else some status.softwareVersion
  return { status with softwareVersion, readSoftwareVersionBlock := false }

def parseRfidData : Option CanvasStatus := do
  let detected ← if 3 + 8 + 180 ≤ validData.length then validData[2]? else some 0
  if detected = 0 then return { status with readRfidDataBlock := false }
  let uid ← readRange validData 3 (3 + 8)
  let data ← readRange validData (3 + 8) (3 + 8 + 180)
  return { status with
    rfidData := some {
      uid := uid.foldr (fun byte value => (value <<< 8) ||| byte.toUInt64) 0
      data }
    readRfidDataBlock := false }

/-- The data of one channel. The third byte of the distance is shifted by seven bits. -/
def readFeeder (index : Nat) : Option FeederStatus := do
  let feedersStatus ← validData[index + 0]?
  let position1 ← validData[index + 1]?
  let position2 ← validData[index + 2]?
  let position3 ← validData[index + 3]?
  let position4 ← validData[index + 4]?
  let distance1 ← validData[index + 5]?
  let distance2 ← validData[index + 6]?
  let distance3 ← validData[index + 7]?
  let distance4 ← validData[index + 8]?
  return {
    feedersStatus
    chPosition := position1.toUInt32 <<< 24 ||| position2.toUInt32 <<< 16 |||
      position3.toUInt32 <<< 8 ||| position4.toUInt32 <<< 0
    chFilaMoveDist := distance1.toUInt32 <<< 24 ||| distance2.toUInt32 <<< 16 |||
      distance3.toUInt32 <<< 7 ||| distance4.toUInt32 <<< 0
    filaAbnormal := (feedersStatus >>> 7) &&& 0x01
    dragging := (feedersStatus >>> 6) &&& 0x01
    dragCompensateError := (feedersStatus >>> 4) &&& 0x01
    motorSlip := (feedersStatus >>> 3) &&& 0x01
    motorCrtlErr := (feedersStatus >>> 2) &&& 0x01
    filaIn := (feedersStatus >>> 1) &&& 0x01
    motorFault := (feedersStatus >>> 0) &&& 0x01 }

def parseAllStatus : Option CanvasStatus := do
  let deviceStatus ← validData[2]?
  let feeders ← (List.range channelNumber).mapM fun channel =>
    readFeeder validData (3 + channel * feederDataSize)
  return { status with
    status := deviceStatus
    feeders
    canvasLiteStatus :=
      if status.isBootInit then status.canvasLiteStatus else feeders.map (·.filaIn)
    isBootInit := true
    readFeedersStatusBlock := false }

def dispatchCommand : Option CanvasStatus := do
  match CanvasCmd.ofByte (← validData[1]?) with
  | some .softwareVersion => status.parseSoftwareVersion validData
  | some .rfidData => status.parseRfidData validData
  | some .allStatus => status.parseAllStatus validData
  | _ => return status

end CanvasStatus

def getValidData (frameData : List UInt8) : Option (List UInt8) := do
  let flag ← frameData[1]?
  if flag = 0x00 then readRange frameData 7 (frameData.length - 2)
  else if flag = 0x80 then readRange frameData 4 (frameData.length - 2)
  else return []

def parseFrame (status : CanvasStatus) (frameData : List UInt8) : Option CanvasStatus := do
  let validData ← getValidData frameData
  if validData.isEmpty then return status
  status.dispatchCommand validData

def dispatchedBy (frames : List (List UInt8)) : Option (List (List UInt8)) :=
  (frames.mapM getValidData).map fun payloads => payloads.filter fun data => !data.isEmpty

structure CanvasComm where
  protocol : CanvasProtocol
  status : CanvasStatus

/-- The queued frames are parsed; there is no next state if bytes outside of a frame are read. -/
def CanvasComm.onParseData (canvas : CanvasComm) : Option CanvasComm := do
  let status ← canvas.protocol.receiveBuffers.foldlM parseFrame canvas.status
  return { protocol := { canvas.protocol with receiveBuffers := [] }, status }

/-- The two threads of `CanvasComm`: one feeds the bytes it reads, one parses. -/
inductive CanvasEvent where
  | receive (data : UInt8)
  | analysis

def CanvasComm.step (canvas : CanvasComm) : CanvasEvent → Option CanvasComm
  | .receive data =>
    (canvas.protocol.onCompileData data).map fun protocol => { canvas with protocol }
  | .analysis => canvas.onParseData

end CentauriCarbon.Canvas
