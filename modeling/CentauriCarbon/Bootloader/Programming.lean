import CentauriCarbon.Bootloader.Erasing

/-! # What is programmed

Whole words first, then one more word for the bytes that are left. The number of words is cut to
16 bits and the addresses wrap at 32 bits.
-/

namespace CentauriCarbon.Bootloader

open List BootDevice

theorem Board.contains_word (board : Board) (offset : UInt32) :
    board.Contains (board.appStartAddress + offset).toNat 4 ↔
      offset.toNat + 4 ≤ board.appSize.toNat := by
  have start := board.toNat_appStartAddress
  have size := board.toNat_appSize
  have large := flashSize_cases board.mach
  have bound := offset.toNat_lt
  rw [contains_iff, UInt32.toNat_add]
  omega

namespace BootDevice

theorem flashWordProgram_accesses (device : BootDevice) (address : UInt32) (words : List UInt32) :
    (device.flashWordProgram address words).accesses =
      device.accesses ++ (range words.length).map fun index =>
        .program (address + UInt32.ofNat (4 * index)).toNat := by
  induction words generalizing device address with
  | nil => simp [flashWordProgram]
  | cons word words induction =>
    rw [flashWordProgram, induction, length_cons, range_succ_eq_map, map_cons,
      map_map, fmcWordProgram, append_assoc]
    congr 1
    rw [singleton_append]
    congr 1
    · simp
    apply map_congr_left
    intro index _
    have next : address + 4 + UInt32.ofNat (4 * index) =
        address + UInt32.ofNat (4 * (index + 1)) := by
      rw [UInt32.add_assoc, Nat.mul_succ, Nat.add_comm, UInt32.ofNat_add]
      rfl
    rw [next]
    rfl

def wordAccesses (start : UInt32) (wordCount len : Nat) : List Access :=
  if 0 < wordCount then
    .payload 12 (4 * wordCount) len ::
      (range wordCount).map fun index => .program (start + UInt32.ofNat (4 * index)).toNat
  else []

def tailAccesses (data : Nat) (start finish : UInt32) (len : Nat) : List Access :=
  if start < finish then
    [.payload data (finish - start).toUInt8.toNat len, .program start.toNat]
  else []

section Request

variable (device : BootDevice) (call : ComCall)

theorem programWords_eq (app start finish : UInt32) : device.programWords call app start finish =
      let wordCount := ((finish - start) / 4).toUInt16
      ((if wordCount > 0 then
          (device.use 12 (4 * wordCount.toNat) call.len.toNat).flashWordProgram start
            ((range wordCount.toNat).map fun index => readWord call.payload (12 + 4 * index))
        else device), start + 4 * wordCount.toUInt32, wordCount) := by
  rw [programWords]
  dsimp only
  rw [ite_self]
  by_cases some : ((finish - start) / 4).toUInt16 > 0
  · rw [if_pos some, if_pos some]
  have none : ((finish - start) / 4).toUInt16 = 0 := by
    apply UInt16.toNat_inj.mp
    exact Nat.eq_zero_of_not_pos some
  rw [if_neg some, if_neg some, none]
  simp

theorem programWords_accesses (app start finish : UInt32) :
    (device.programWords call app start finish).1.accesses =
      device.accesses ++
        wordAccesses start ((finish - start) / 4).toUInt16.toNat call.len.toNat := by
  rw [programWords_eq]
  dsimp only
  by_cases some : ((finish - start) / 4).toUInt16 > 0
  · have positive : 0 < ((finish - start) / 4).toUInt16.toNat := UInt16.lt_iff_toNat_lt.mp some
    rw [if_pos some, flashWordProgram_accesses, wordAccesses, if_pos positive, use,
      append_assoc, length_map, length_range]
    rfl
  · have none : ¬0 < ((finish - start) / 4).toUInt16.toNat :=
      fun positive => some (UInt16.lt_iff_toNat_lt.mpr positive)
    rw [if_neg some, wordAccesses, if_neg none, append_nil]

theorem programTail_accesses (data : Nat) (start finish : UInt32) :
    (device.programTail call data start finish).1.accesses =
      device.accesses ++ tailAccesses data start finish call.len.toNat := by
  rw [programTail, tailAccesses]
  split
  · rw [flashWordProgram_accesses, use, append_assoc]
    simp
  · rw [append_nil]

end Request

end BootDevice

end CentauriCarbon.Bootloader
