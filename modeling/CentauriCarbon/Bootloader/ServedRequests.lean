import CentauriCarbon.Bootloader.Programming
import CentauriCarbon.Bootloader.SerialBootloader

/-! # Requests of an update, as the board serves them -/

namespace CentauriCarbon.Bootloader

open List BootDevice

@[simp] theorem cancelJump_flash (device : BootDevice) :
    device.cancelJump.flash = device.flash := by
  rw [cancelJump]
  split <;> rfl

@[simp] theorem cancelJump_sent (device : BootDevice) : device.cancelJump.sent = device.sent := by
  rw [cancelJump]
  split <;> rfl

theorem handleErase_spec (board : Board) (device : BootDevice)
    (isSize : readWord call.payload 0 = size) (fits : size ≤ board.appSize) :
    ∃ extent, size.toNat ≤ extent ∧ extent ≤ 0x80000 ∧ extent % 4 = 0 ∧
      (handleErase board device call).1.flash =
        eraseRange device.flash board.appStartAddress.toNat extent ∧
      (handleErase board device call).1.sent =
        device.sent ++ bootloaderPackageData cmdErase (wordBytes (UInt32.ofNat extent)) := by
  have notAbove : ¬size > board.appSize := UInt32.not_lt.mpr fits
  rcases eraseAddresses_spec (device.use 0 4 call.len.toNat).cancelJump board fits with
    ⟨extent, pieces, result, reached, bounded, whole, -⟩
  have answer : board.appStartAddress + UInt32.ofNat extent - board.appStartAddress =
      UInt32.ofNat extent := by
    rw [UInt32.add_comm, UInt32.add_sub_cancel]
  refine ⟨extent, reached, bounded, whole, ?_⟩
  simp only [handleErase, isSize, if_neg notAbove, result, answer, sendAck, afterErase,
    cancelJump_flash, cancelJump_sent]
  exact ⟨rfl, rfl⟩

theorem flashWordProgram_flash (device : BootDevice)
    (inside : address.toNat + 4 * words.length < 2 ^ 32) :
    (device.flashWordProgram address words).flash =
      writeAt device.flash address.toNat (words.flatMap wordBytes) := by
  induction words generalizing device address with
  | nil => rw [flashWordProgram, flatMap_nil, writeAt_nil]
  | cons word words induction =>
    rw [length_cons] at inside
    have next : (address + 4).toNat = address.toNat + 4 := by
      change (address.toNat + 4) % 2 ^ 32 = _
      omega
    rw [flashWordProgram, induction _ (by omega), flatMap_cons, writeAt_append, next]
    rfl

@[simp] theorem flashWordProgram_sent (device : BootDevice) (address : UInt32)
    (words : List UInt32) : (device.flashWordProgram address words).sent = device.sent := by
  induction words generalizing device address with
  | nil => rfl
  | cons word words induction =>
    rw [flashWordProgram, induction]
    rfl

def programmed (flash : Nat → UInt8) (address : Nat) (data : List UInt8) : Nat → UInt8 :=
  let whole := 4 * (data.length / 4)
  let words := writeAt flash address (data.take whole)
  if data.length % 4 = 0 then words
  else writeAt words (address + whole)
    (wordBytes (tailWord (readWord words (address + whole)) (data.drop whole)))

def wordsOf (length : Nat) : Nat := (length + 3) / 4

section Program

variable {board : Board} {call : ComCall}

structure ProgramCall (call : ComCall) (data : List UInt8) (offset size : Nat) : Prop where
  payload : readAt call.payload 0 (12 + data.length) = programPayload data offset data.length size
  small : data.length ≤ packageSize
  inside : offset + data.length ≤ size

theorem ProgramCall.fields (isCall : ProgramCall call data offset size) :
    readWord call.payload 0 = UInt32.ofNat offset ∧
      readWord call.payload 4 = UInt32.ofNat data.length ∧
      readWord call.payload 8 = UInt32.ofNat size ∧
      readAt call.payload 12 data.length = data := by
  have bytes := isCall.payload
  have parts : 12 + data.length = 4 + (4 + (4 + data.length)) := by omega
  rw [parts, readAt_add, readAt_add, readAt_add, programPayload, append_assoc,
    append_assoc] at bytes
  rcases append_inj bytes rfl with ⟨first, bytes⟩
  rcases append_inj bytes rfl with ⟨second, bytes⟩
  rcases append_inj bytes rfl with ⟨third, fourth⟩
  rw [take_length] at fourth
  exact ⟨readWord_of_readAt first, readWord_of_readAt second, readWord_of_readAt third, fourth⟩

structure ProgramAddresses (board : Board) (data : List UInt8) (offset : Nat)
    (start finish : UInt32) : Prop where
  start_eq : start.toNat = board.appStartAddress.toNat + offset
  finish_eq : finish.toNat = board.appStartAddress.toNat + offset + data.length
  small : data.length ≤ packageSize
  inside : finish.toNat < 0x8100000

theorem ProgramAddresses.wordCount (addresses : ProgramAddresses board data offset start finish) :
    ((finish - start) / 4).toUInt16.toNat = data.length / 4 := by
  rcases addresses with ⟨isStart, isFinish, small, inside⟩
  unfold packageSize at small
  change (2 ^ 32 - start.toNat + finish.toNat) % 2 ^ 32 / 4 % 2 ^ 16 = _
  omega

theorem programWords_spec (device : BootDevice)
    (addresses : ProgramAddresses board data offset start finish)
    (isData : readAt call.payload 12 data.length = data) (app : UInt32) :
    let words := device.programWords call app start finish
    words.1.flash = writeAt device.flash start.toNat (data.take (4 * (data.length / 4))) ∧
      words.1.sent = device.sent ∧
      words.2.1.toNat = start.toNat + 4 * (data.length / 4) ∧
      words.2.2.toNat = data.length / 4 := by
  have wordCount := addresses.wordCount
  rcases addresses with ⟨isStart, isFinish, -, inside⟩
  have behind : (start + 4 * ((finish - start) / 4).toUInt16.toUInt32).toNat =
      start.toNat + 4 * (data.length / 4) := by
    rw [UInt32.toNat_add, UInt32.toNat_mul, UInt16.toNat_toUInt32, wordCount]
    change (start.toNat + 4 * _ % 2 ^ 32) % 2 ^ 32 = _
    omega
  have bytes : readAt call.payload 12 (4 * (data.length / 4)) =
      data.take (4 * (data.length / 4)) := by
    have parts : data.length = 4 * (data.length / 4) + data.length % 4 := by omega
    conv_rhs => rw [← isData, parts, readAt_add]
    rw [take_left' (by simp; omega)]
  rw [programWords_eq]
  dsimp only
  refine ⟨?_, ?_, behind, wordCount⟩
  · split
    · rw [flashWordProgram_flash, flatMap_wordBytes_readWord, wordCount, bytes]
      · rfl
      · rw [length_map, length_range, wordCount]
        omega
    next none =>
      have zero : data.length / 4 = 0 := by
        rw [gt_iff_lt, UInt16.lt_iff_toNat_lt, wordCount] at none
        exact Nat.eq_zero_of_not_pos none
      rw [zero, Nat.mul_zero, take_zero, writeAt_nil]
  · split
    · rw [flashWordProgram_sent]
      rfl
    · rfl

theorem programTail_spec (words : BootDevice)
    (addresses : ProgramAddresses board data offset start finish)
    (isData : readAt call.payload 12 data.length = data)
    (isBehind : behind.toNat = start.toNat + 4 * (data.length / 4)) :
    let tail := words.programTail call (12 + 4 * (data.length / 4)) behind finish
    (tail.1.flash = if data.length % 4 = 0 then words.flash
      else writeAt words.flash behind.toNat
        (wordBytes (tailWord (readWord words.flash behind.toNat)
          (data.drop (4 * (data.length / 4)))))) ∧
      tail.1.sent = words.sent ∧
      tail.2.toNat = start.toNat + 4 * wordsOf data.length := by
  rcases addresses with ⟨isStart, isFinish, -, inside⟩
  have less : behind < finish ↔ ¬data.length % 4 = 0 := by
    rw [UInt32.lt_iff_toNat_lt]
    omega
  have rest : readAt call.payload (12 + 4 * (data.length / 4)) (data.length % 4) =
      data.drop (4 * (data.length / 4)) := by
    have parts : data.length = 4 * (data.length / 4) + data.length % 4 := by omega
    conv_rhs => rw [← isData, parts, readAt_add]
    rw [drop_left' (by simp; omega)]
  unfold wordsOf
  rw [programTail]
  by_cases whole : data.length % 4 = 0
  · rw [if_neg (fun before => less.mp before whole), if_pos whole]
    exact ⟨rfl, rfl, by dsimp only; omega⟩
  have count : (finish - behind).toUInt8.toNat = data.length % 4 := by
    rw [UInt32.toNat_toUInt8, UInt32.toNat_sub]
    omega
  have next : (behind + 4).toNat = behind.toNat + 4 := by
    change (behind.toNat + 4) % 2 ^ 32 = _
    omega
  rw [if_pos (less.mpr whole), if_neg whole]
  dsimp only
  rw [count, rest]
  refine ⟨?_, flashWordProgram_sent _ _ _, ?_⟩
  · rw [flashWordProgram_flash, flatMap_singleton]
    · rfl
    · rw [length_singleton]
      omega
  · rw [next]
    omega

/-- A request of the host programs its data, and the answer counts whole words. -/
theorem handleProgram_spec (isCall : ProgramCall call data offset size)
    (fits : size ≤ board.appSize.toNat) : (handleProgram board device call).1.flash =
        programmed device.flash (board.appStartAddress.toNat + offset) data ∧
      (handleProgram board device call).1.sent =
        device.sent ++ bootloaderPackageData cmdProgram
          (wordBytes (UInt32.ofNat (4 * wordsOf data.length)) ++
            wordBytes (UInt32.ofNat (offset + 4 * wordsOf data.length))) := by
  rcases isCall.fields with ⟨isOffset, isLength, isSize, isData⟩
  rcases board.layout with ⟨app, appSize, bootSize, flashSize⟩
  have small := isCall.small
  have within := isCall.inside
  have notAbove : ¬UInt32.ofNat offset + UInt32.ofNat data.length > UInt32.ofNat size := by
    rw [gt_iff_lt, UInt32.lt_iff_toNat_lt, UInt32.toNat_add]
    simp only [UInt32.toNat_ofNat']
    omega
  have addresses : ProgramAddresses board data offset
      (board.appStartAddress + UInt32.ofNat offset)
      (board.appStartAddress + UInt32.ofNat offset + UInt32.ofNat data.length) := by
    constructor
    · rw [UInt32.toNat_add, UInt32.toNat_ofNat']
      omega
    · rw [UInt32.toNat_add, UInt32.toNat_add]
      simp only [UInt32.toNat_ofNat']
      omega
    · exact small
    · rw [UInt32.toNat_add, UInt32.toNat_add]
      simp only [UInt32.toNat_ofNat']
      omega
  rcases programWords_spec (device.use 0 12 call.len.toNat) addresses isData
    board.appStartAddress with ⟨wordsFlash, wordsSent, isBehind, isCount⟩
  rcases programTail_spec ((device.use 0 12 call.len.toNat).programWords call
    board.appStartAddress (board.appStartAddress + UInt32.ofNat offset)
    (board.appStartAddress + UInt32.ofNat offset + UInt32.ofNat data.length)).1 addresses isData
    isBehind with ⟨tailFlash, tailSent, isEnd⟩
  rw [← isCount] at tailFlash tailSent isEnd
  have isStart := addresses.start_eq
  simp only [handleProgram, isOffset, isLength, isSize, if_neg notAbove, sendAck]
  generalize programTail _ call _ _ _ = tail at tailFlash tailSent isEnd ⊢
  have isOffsetAfter : tail.2 - board.appStartAddress =
      UInt32.ofNat (offset + 4 * wordsOf data.length) := by
    apply UInt32.toNat_inj.mp
    rw [UInt32.toNat_sub, isEnd, isStart, UInt32.toNat_ofNat']
    omega
  have isAnswer : tail.2 - board.appStartAddress - UInt32.ofNat offset =
      UInt32.ofNat (4 * wordsOf data.length) := by
    rw [isOffsetAfter, UInt32.ofNat_add, UInt32.add_comm, UInt32.add_sub_cancel]
  rw [tailFlash, tailSent, wordsSent, isBehind, wordsFlash, isStart, isCount, isAnswer,
    isOffsetAfter]
  exact ⟨rfl, rfl⟩

end Program

end CentauriCarbon.Bootloader
