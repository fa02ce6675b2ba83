import CentauriCarbon.Bootloader.PackageStream
import CentauriCarbon.Bootloader.Programming

/-! # Requests that stay in bounds

The bootloader looks at a request without asking how long it is, and takes the limit of a program
request from the request itself. A request is harmless exactly if its fields are.
-/

namespace CentauriCarbon.Bootloader

open List BootDevice ComParser

/-! ## Program requests -/

variable (board : Board) (device : BootDevice) (call : ComCall) {parser : ComParser}

theorem toNat_offset_add (fits : offset.toNat + 4 ≤ board.appSize.toNat) (small : bytes < 2 ^ 18) :
    (offset + UInt32.ofNat bytes).toNat = offset.toNat + bytes := by
  have size := board.toNat_appSize
  have large := Board.flashSize_cases board.mach
  rw [UInt32.toNat_add, UInt32.toNat_ofNat']
  omega

theorem wordAccesses_allowed_iff (offset : UInt32) (small : wordCount < 2 ^ 16) (len : Nat) :
    (∀ access ∈ wordAccesses (board.appStartAddress + offset) wordCount len,
        access.Allowed board) ↔
      (0 < wordCount → 12 + 4 * wordCount ≤ len ∧
        offset.toNat + 4 * wordCount ≤ board.appSize.toNat) := by
  have word (index : Nat) : (Access.program (board.appStartAddress + offset +
      UInt32.ofNat (4 * index)).toNat).Allowed board ↔
        (offset + UInt32.ofNat (4 * index)).toNat + 4 ≤ board.appSize.toNat := by
    rw [Access.Allowed, UInt32.add_assoc]
    exact board.contains_word _
  by_cases some : 0 < wordCount
  · rw [wordAccesses, if_pos some, forall_mem_cons, imp_iff_right some]
    apply and_congr Iff.rfl
    simp only [forall_mem_map, mem_range, word]
    constructor
    · intro all
      have first := all 0 some
      have last := all (wordCount - 1) (by omega)
      have zero : offset + UInt32.ofNat (4 * 0) = offset := UInt32.add_zero offset
      rw [zero] at first
      rw [toNat_offset_add board first (by omega)] at last
      omega
    · intro fits index before
      rw [toNat_offset_add board (by omega) (by omega)]
      omega
  · simp [wordAccesses, some]

theorem tailAccesses_allowed_iff (offset finish : UInt32) (data len : Nat) :
    (∀ access ∈ tailAccesses data (board.appStartAddress + offset) finish len,
        access.Allowed board) ↔
      (board.appStartAddress + offset < finish →
        data + (finish - (board.appStartAddress + offset)).toUInt8.toNat ≤ len ∧
          offset.toNat + 4 ≤ board.appSize.toNat) := by
  by_cases some : board.appStartAddress + offset < finish
  · rw [tailAccesses, if_pos some, forall_mem_cons, forall_mem_singleton,
      imp_iff_right some, ← board.contains_word]
    rfl
  · simp [tailAccesses, some]

theorem toNat_tailCount (start length : UInt32) :
    (start + length - (start + UInt32.ofNat (4 * (length.toNat / 4 % 2 ^ 16)))).toUInt8.toNat =
      length.toNat % 4 := by
  have rest : start + length - (start + UInt32.ofNat (4 * (length.toNat / 4 % 2 ^ 16))) =
      length - UInt32.ofNat (4 * (length.toNat / 4 % 2 ^ 16)) := by
    grind
  rw [rest, UInt32.toNat_toUInt8, UInt32.toNat_sub, UInt32.toNat_ofNat']
  omega

/-- The request programs only the application, and has the bytes for it. -/
def ProgramAllowed (board : Board) (offset length size : UInt32) (len : Nat) : Prop :=
  12 ≤ len ∧
    (offset + length ≤ size →
      let wordCount := length.toNat / 4 % 2 ^ 16
      let start := board.appStartAddress + offset
      (0 < wordCount → 12 + 4 * wordCount ≤ len ∧
        offset.toNat + 4 * wordCount ≤ board.appSize.toNat) ∧
      (start + UInt32.ofNat (4 * wordCount) < start + length →
        12 + 4 * wordCount + length.toNat % 4 ≤ len ∧
          (offset + UInt32.ofNat (4 * wordCount)).toNat + 4 ≤ board.appSize.toNat))

def AllowedIff (board : Board) (device next : BootDevice) (condition : Prop) : Prop :=
  ∃ more, next.accesses = device.accesses ++ more ∧
    ((∀ access ∈ more, access.Allowed board) ↔ condition)

def programAccesses (board : Board) (offset length : UInt32) (len : Nat) : List Access :=
  let wordCount := length.toNat / 4 % 2 ^ 16
  .payload 0 12 len :: (wordAccesses (board.appStartAddress + offset) wordCount len ++
    tailAccesses (12 + 4 * wordCount)
      (board.appStartAddress + (offset + UInt32.ofNat (4 * wordCount)))
      (board.appStartAddress + offset + length) len)

theorem handleProgram_accesses : (handleProgram board device call).1.accesses =
      device.accesses ++ programAccesses board (readWord call.payload 0)
        (if readWord call.payload 0 + readWord call.payload 4 > readWord call.payload 8 then 0
          else readWord call.payload 4) call.len.toNat := by
  unfold handleProgram
  dsimp only
  generalize readWord call.payload 0 = offset
  generalize (if offset + readWord call.payload 4 > readWord call.payload 8 then 0
    else readWord call.payload 4) = length
  have count : board.appStartAddress + offset + length - (board.appStartAddress + offset) =
      length := by
    rw [UInt32.add_comm, UInt32.add_sub_cancel]
  have words : (length / 4).toUInt16.toNat = length.toNat / 4 % 2 ^ 16 := by
    rfl
  have bytes : 4 * (length / 4).toUInt16.toUInt32 =
      UInt32.ofNat (4 * (length.toNat / 4 % 2 ^ 16)) := by
    rfl
  have second : ((device.use 0 12 call.len.toNat).programWords call board.appStartAddress
      (board.appStartAddress + offset) (board.appStartAddress + offset + length)).2 =
        (board.appStartAddress + (offset + UInt32.ofNat (4 * (length.toNat / 4 % 2 ^ 16))),
          (length / 4).toUInt16) := by
    rw [programWords_eq, count]
    dsimp only
    rw [bytes, UInt32.add_assoc]
  rw [sendAck, programTail_accesses, programWords_accesses, second, count, words, programAccesses,
    use, append_assoc, append_assoc, singleton_append]

theorem handleProgram_allowed : AllowedIff board device (handleProgram board device call).1
      (ProgramAllowed board (readWord call.payload 0) (readWord call.payload 4)
        (readWord call.payload 8) call.len.toNat) := by
  refine ⟨_, handleProgram_accesses board device call, ?_⟩
  generalize readWord call.payload 0 = offset
  generalize readWord call.payload 4 = requested
  generalize readWord call.payload 8 = size
  rw [programAccesses, ProgramAllowed, forall_mem_cons, forall_mem_append,
    wordAccesses_allowed_iff board offset (Nat.mod_lt _ (by decide)), tailAccesses_allowed_iff]
  apply and_congr Iff.rfl
  by_cases tooLong : offset + requested > size
  · have notLess : ¬offset + requested ≤ size := UInt32.not_le.mpr tooLong
    rw [if_pos tooLong]
    simp [notLess]
  have fits : offset + requested ≤ size := UInt32.not_lt.mp tooLong
  have rest := toNat_tailCount (board.appStartAddress + offset) requested
  rw [UInt32.add_assoc board.appStartAddress offset (UInt32.ofNat _)] at rest
  rw [if_neg tooLong, imp_iff_right fits, rest]
  dsimp only
  rw [UInt32.add_assoc board.appStartAddress offset (UInt32.ofNat _)]

theorem cancelJump_accesses : device.cancelJump.accesses = device.accesses := by
  rw [cancelJump]
  split <;> rfl

theorem handleErase_allowed : AllowedIff board device (handleErase board device call).1
      (4 ≤ call.len.toNat ∧
        (board.mach = .stm32f401 → readWord call.payload 0 ≠ board.appSize)) := by
  unfold handleErase
  dsimp only
  generalize readWord call.payload 0 = requested
  have fits : (if requested > board.appSize then 0 else requested) ≤ board.appSize := by
    split
    · exact UInt32.le_iff_toNat_le.mpr (Nat.zero_le _)
    next notAbove => exact UInt32.not_lt.mp notAbove
  rcases eraseAddresses_spec (device.use 0 4 call.len.toNat).cancelJump board fits with
    ⟨extent, pieces, result, -, -, -, allowed⟩
  refine ⟨.payload 0 4 call.len.toNat :: pieces, ?_, ?_⟩
  · rw [result, sendAck, afterErase, cancelJump_accesses, use, append_assoc]
    rfl
  rw [forall_mem_cons, allowed]
  apply and_congr Iff.rfl
  apply imp_congr_right
  intro _
  split
  next above =>
    apply iff_of_true
    · intro same
      rcases board.layout with ⟨-, size, small, large⟩
      rw [← same] at size
      change 0 = _ at size
      omega
    · rintro rfl
      exact UInt32.lt_irrefl _ above
  · rfl

theorem handlePing_allowed :
    AllowedIff board device (handlePing device call).1 (4 ≤ call.len.toNat) := by
  refine ⟨[.payload 0 4 call.len.toNat], ?_, ?_⟩
  · rw [handlePing, sendAck]
    split <;> rfl
  · rw [forall_mem_singleton]
    rfl

/-! ## Sequences of requests -/

structure Package where
  cmd : UInt8
  payload : List UInt8
  fits : payload.length ≤ comMaxPayload

namespace Package

def bytes (package : Package) : List UInt8 := bootloaderPackageData package.cmd package.payload

def field (package : Package) (position : Nat) : UInt32 :=
  readWord (fun index => package.payload.getD index 0) position

def Allowed (board : Board) (package : Package) : Prop :=
  if package.cmd = cmdErase then
    4 ≤ package.payload.length ∧ (board.mach = .stm32f401 → package.field 0 ≠ board.appSize)
  else if package.cmd = cmdProgram then
    ProgramAllowed board (package.field 0) (package.field 4) (package.field 8)
      package.payload.length
  else if package.cmd = cmdPing then 4 ≤ package.payload.length
  else True

end Package

theorem bootloaderComHandle_allowed {package : Package} {call : ComCall}
    (isCmd : call.cmd = package.cmd) (isLength : call.len.toNat = package.payload.length)
    (isPayload : ∀ index < package.payload.length,
      call.payload index = package.payload.getD index 0) :
    AllowedIff board device (bootloaderComHandle board device call).1 (package.Allowed board) := by
  have field {position : Nat} (inside : position + 4 ≤ package.payload.length) :
      readWord call.payload position = package.field position := by
    rw [readWord, Package.field, readWord, isPayload position (by omega),
      isPayload (position + 1) (by omega), isPayload (position + 2) (by omega),
      isPayload (position + 3) (by omega)]
  unfold bootloaderComHandle Package.Allowed
  rw [isCmd, ← isLength]
  split
  · rcases handleErase_allowed board device call with ⟨more, isMore, allowed⟩
    refine ⟨more, isMore, allowed.trans ?_⟩
    apply and_congr_right
    intro inside
    rw [field (by omega)]
  split
  · rcases handleProgram_allowed board device call with ⟨more, isMore, allowed⟩
    refine ⟨more, isMore, allowed.trans ?_⟩
    apply and_congr_right
    intro inside
    rw [field (by omega), field (by omega), field (by omega)]
  next notProgram =>
    split
    next isJump =>
      have notPing : call.cmd ≠ cmdPing := by
        rw [isCmd, isJump]
        decide
      rw [← isCmd, if_neg notPing]
      exact ⟨[], (append_nil _).symm, by simp⟩
    · split
      · exact handlePing_allowed board device call
      · exact ⟨[], (append_nil _).symm, by simp⟩

theorem feed_package_allowed (isA5 : parser.sta = .a5) (package : Package) :
    let next := feed (bootloaderComHandle board) (parser, device) package.bytes
    next.1.sta = .a5 ∧ AllowedIff board device next.2 (package.Allowed board) := by
  rw [Package.bytes, feed_package (bootloaderComHandle board) isA5 package.fits]
  refine ⟨rfl, ?_⟩
  have small := package.fits
  have length : (UInt16.ofNat package.payload.length).toNat = package.payload.length := by
    unfold comMaxPayload at small
    rw [UInt16.toNat_ofNat']
    omega
  apply bootloaderComHandle_allowed board device rfl length
  intro index inside
  have position := writeAt_add parser.payload 0 inside
  rw [zero_add] at position
  rw [getD_eq_getElem?_getD, getElem?_eq_getElem inside]
  exact position

theorem feed_packages_allowed {packages : List Package} (isA5 : parser.sta = .a5) :
    AllowedIff board device (feed (bootloaderComHandle board) (parser, device)
      (packages.flatMap Package.bytes)).2 (∀ package ∈ packages, package.Allowed board) := by
  induction packages generalizing parser device with
  | nil => exact ⟨[], (append_nil _).symm, by simp⟩
  | cons package packages induction =>
    rcases feed_package_allowed board device isA5 package with
      ⟨nextA5, first, isFirst, firstAllowed⟩
    rcases induction (feed (bootloaderComHandle board) (parser, device) package.bytes).2
      nextA5 with ⟨later, isLater, laterAllowed⟩
    refine ⟨first ++ later, ?_, ?_⟩
    · rw [flatMap_cons, feed_append, isLater, isFirst, append_assoc]
    · rw [forall_mem_append, firstAllowed, laterAllowed, forall_mem_cons]

/-- Over any sequence of requests, the bootloader keeps to the application and to the payloads
exactly if every request does. -/
theorem requests_in_bounds_iff (board : Board) (parser : ComParser) (device : BootDevice)
    (packages : List Package) :
    (∀ access ∈ (feed (bootloaderComHandle board)
        ({ parser with sta := .a5 }, { device with accesses := [] })
        (packages.flatMap Package.bytes)).2.accesses, access.Allowed board) ↔
      ∀ package ∈ packages, package.Allowed board := by
  let idle : ComParser := { parser with sta := .a5 }
  have isA5 : idle.sta = .a5 := rfl
  rcases feed_packages_allowed board { device with accesses := [] } isA5 with
    ⟨more, isMore, allowed⟩
  rw [isMore, nil_append]
  exact allowed

def overBootloader : Package where
  cmd := cmdProgram
  payload := wordBytes 0xffffe000 ++ wordBytes 4 ++ wordBytes 0xffffffff ++ wordBytes 0
  fits := Nat.le_of_ble_eq_true rfl

def emptyPing : Package := ⟨cmdPing, [], Nat.zero_le _⟩

/-- A request programs the bootloader itself, and one without a payload has one read. -/
theorem bootloader_programmed :
    (feed (bootloaderComHandle smallBoard) (initial, blankDevice)
        ([overBootloader, emptyPing].flatMap Package.bytes)).2.accesses =
      [.payload 0 12 16, .payload 12 4 16, .program 0x8000000, .payload 0 4 0] ∧
      ¬(Access.program 0x8000000).Allowed smallBoard ∧
      ¬(Access.payload 0 4 0).Allowed smallBoard := by
  decide +kernel

end CentauriCarbon.Bootloader
