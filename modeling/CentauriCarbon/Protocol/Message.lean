import Mathlib.Data.List.Basic

/-! # Message blocks

Constants and checksum shared by the host (`msgblock.h`, `msgblock.c`) and the
micro-controller (`command.h`, `crc16_ccitt.c`). A block is a length byte, a
sequence byte, a payload, two checksum bytes and a SYNC byte.
-/

namespace CentauriCarbon.Protocol

def messageMin : Nat := 5
def messageMax : Nat := 64
def messageHeaderSize : Nat := 2
def messageTrailerSize : Nat := 3
def messagePosLen : Nat := 0
def messagePosSeq : Nat := 1
def messageTrailerCrc : Nat := 3
def messageTrailerSync : Nat := 1
def messagePayloadMax : Nat := messageMax - messageMin
def messageSeqMask : UInt8 := 0x0f
def messageDest : UInt8 := 0x10
def messageSync : UInt8 := 0x7e

def crcUpdate (crc : UInt16) (byte : UInt8) : UInt16 :=
  let data := byte ^^^ crc.toUInt8
  let data := data ^^^ (data <<< 4)
  ((data.toUInt16 <<< 8) ||| (crc >>> 8)) ^^^ (data >>> 4).toUInt16 ^^^ (data.toUInt16 <<< 3)

def msgblockCrc16Ccitt (buf : List UInt8) : UInt16 := buf.foldl crcUpdate 0xffff

def crc16Ccitt (buf : List UInt8) : UInt16 := buf.foldl crcUpdate 0xffff

/-- The check value of the algorithm on the nine digits `123456789`. -/
example : crc16Ccitt [49, 50, 51, 52, 53, 54, 55, 56, 57] = 0x6f91 := by decide

def crcBytes (crc : UInt16) : List UInt8 := [(crc >>> 8).toUInt8, crc.toUInt8]

def crcOfBytes (high low : UInt8) : UInt16 := (high.toUInt16 <<< 8) ||| low.toUInt16

theorem crcOfBytes_crcBytes (crc : UInt16) : crcOfBytes (crc >>> 8).toUInt8 crc.toUInt8 = crc := by
  apply UInt16.toNat_inj.mp
  have bound := crc.toNat_lt
  have highByte : crc.toNat >>> 8 % 2 ^ 8 = crc.toNat / 2 ^ 8 := by
    omega
  have highShifted : (crc.toNat / 2 ^ 8) <<< 8 % 2 ^ 16 = (crc.toNat / 2 ^ 8) <<< 8 := by
    omega
  change (crc.toNat >>> 8 % 2 ^ 8) <<< 8 % 2 ^ 16 ||| crc.toNat % 2 ^ 8 = crc.toNat
  rw [highByte, highShifted, ← Nat.shiftLeft_add_eq_or_of_lt (by omega), Nat.shiftLeft_eq]
  omega

def addFrame (seq : UInt8) (payload : List UInt8) : List UInt8 :=
  let msglen := messageHeaderSize + payload.length + messageTrailerSize
  let covered := UInt8.ofNat msglen :: seq :: payload
  covered ++ crcBytes (msgblockCrc16Ccitt covered) ++ [messageSync]

@[simp] theorem length_addFrame (seq : UInt8) (payload : List UInt8) :
    (addFrame seq payload).length = payload.length + messageMin := by
  simp [addFrame, crcBytes, messageMin]

@[simp] theorem addFrame_sequence (seq : UInt8) (payload : List UInt8) :
    (addFrame seq payload).getD messagePosSeq 0 = seq := rfl

end CentauriCarbon.Protocol
