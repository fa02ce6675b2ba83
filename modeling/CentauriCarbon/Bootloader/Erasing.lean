import CentauriCarbon.Bootloader.ComHandle

/-! # What is erased

Pages are erased up to the end of the request, sectors also when the request ends just before them.
-/

namespace CentauriCarbon.Bootloader

open List BootDevice

namespace Board

variable (board : Board)

theorem bootloaderSize_cases : board.bootloaderSize.toNat = 0x2000 ∧ board.mach ≠ .stm32f401 ∨
      board.bootloaderSize.toNat = 0x4000 := by
  rcases board.supported with ⟨isSize, notSectors⟩ | isSize
  · exact .inl ⟨congrArg UInt32.toNat isSize, notSectors⟩
  · exact .inr (congrArg UInt32.toNat isSize)

theorem toNat_appStartAddress :
    board.appStartAddress.toNat = 0x8000000 + board.bootloaderSize.toNat := by
  have small := board.bootloaderSize_cases
  rw [appStartAddress, UInt32.toNat_add]
  change (0x8000000 + _) % 2 ^ 32 = _
  omega

theorem flashSize_cases (mach : Mach) :
    mach.flashSize.toNat = 0x40000 ∨ mach.flashSize.toNat = 0x10000 := by
  cases mach with
  | gd32f303 | stm32f401 => exact .inl rfl
  | stm32f103 => exact .inr rfl

theorem toNat_appSize :
    board.appSize.toNat = board.mach.flashSize.toNat - board.bootloaderSize.toNat := by
  have small := board.bootloaderSize_cases
  have large := flashSize_cases board.mach
  rw [appSize, UInt32.toNat_sub_of_le]
  rw [UInt32.le_iff_toNat_le]
  omega

theorem layout : board.appStartAddress.toNat = 0x8000000 + board.bootloaderSize.toNat ∧
    board.appSize.toNat = board.mach.flashSize.toNat - board.bootloaderSize.toNat ∧
    (board.bootloaderSize.toNat = 0x2000 ∧ board.mach ≠ .stm32f401 ∨
      board.bootloaderSize.toNat = 0x4000) ∧
    (board.mach.flashSize.toNat = 0x40000 ∨ board.mach.flashSize.toNat = 0x10000) :=
  ⟨board.toNat_appStartAddress, board.toNat_appSize, board.bootloaderSize_cases,
    flashSize_cases board.mach⟩

def Contains (board : Board) (address size : Nat) : Prop :=
  board.appStartAddress.toNat ≤ address ∧
    address + size ≤ flashBootAddress.toNat + board.mach.flashSize.toNat

instance (board : Board) (address size : Nat) : Decidable (board.Contains address size) :=
  inferInstanceAs (Decidable (_ ∧ _))

theorem contains_iff : board.Contains address size ↔
      board.appStartAddress.toNat ≤ address ∧
        address + size ≤ board.appStartAddress.toNat + board.appSize.toNat := by
  rcases board.layout with ⟨start, size, small, large⟩
  have boot : flashBootAddress.toNat = 0x8000000 := rfl
  rw [Contains]
  omega

end Board

def Access.Allowed (board : Board) : Access → Prop
  | .payload start count len => start + count ≤ len
  | .erase address size => board.Contains address size
  | .program address => board.Contains address 4

instance (board : Board) : DecidablePred (Access.Allowed board)
  | .payload _ _ _ => inferInstanceAs (Decidable (_ ≤ _))
  | .erase _ _ => inferInstanceAs (Decidable (Board.Contains ..))
  | .program _ => inferInstanceAs (Decidable (Board.Contains ..))

namespace BootDevice

theorem eraseRange_add (flash : Nat → UInt8) (address first second : Nat) :
    eraseRange (eraseRange flash address first) (address + first) second =
      eraseRange flash address (first + second) := by
  funext index
  simp only [eraseRange]
  split_ifs <;> first | rfl | omega

@[simp] theorem eraseRange_zero (flash : Nat → UInt8) (address : Nat) :
    eraseRange flash address 0 = flash := by
  funext index
  rw [eraseRange, if_neg (by omega)]

def afterErase (device : BootDevice) (address extent : Nat) (pieces : List Access) : BootDevice :=
  { device with
    flash := eraseRange device.flash address extent
    accesses := device.accesses ++ pieces }

variable (device : BootDevice)

theorem afterErase_afterErase (address first second : Nat) (before after : List Access) :
    (device.afterErase address first before).afterErase (address + first) second after =
      device.afterErase address (first + second) (before ++ after) := by
  simp only [afterErase, eraseRange_add, append_assoc]

theorem erase_eq (address size : Nat) :
    device.erase address size = device.afterErase address size [.erase address size] := rfl

def pageSize : Mach → Nat
  | .gd32f303 => 0x800
  | .stm32f103 => 0x400
  | .stm32f401 => 0

theorem pageSize_cases (paged : mach ≠ .stm32f401) :
    pageSize mach = 0x800 ∧ mach.flashSize.toNat = 0x40000 ∨
      pageSize mach = 0x400 ∧ mach.flashSize.toNat = 0x10000 := by
  cases mach with
  | gd32f303 => exact .inl ⟨rfl, rfl⟩
  | stm32f103 => exact .inr ⟨rfl, rfl⟩
  | stm32f401 => exact absurd rfl paged

variable {start finish : UInt32} {board : Board}

theorem toNat_flashGetPageSize (inside : address.toNat < 0x8000000 + board.mach.flashSize.toNat) :
    (flashGetPageSize board.mach address).toUInt16.toNat = pageSize board.mach := by
  cases isMach : board.mach with
  | gd32f303 =>
    rw [isMach] at inside
    have below : address < 0x08080000 := Nat.lt_trans inside (by decide)
    simp only [flashGetPageSize, if_pos below]
    rfl
  | stm32f103 =>
    rw [isMach] at inside
    have below : address < 0x08020000 := Nat.lt_trans inside (by decide)
    simp only [flashGetPageSize, if_pos below]
    rfl
  | stm32f401 => rfl

theorem erasePages_spec (board : Board) (paged : board.mach ≠ .stm32f401) {device : BootDevice}
    (after : board.appStartAddress ≤ start)
    (inside : finish.toNat ≤ 0x8000000 + board.mach.flashSize.toNat)
    (aligned : start.toNat % pageSize board.mach = 0)
    (enough : finish.toNat - start.toNat ≤ rounds) :
    ∃ extent pieces,
      erasePages board.mach rounds device start finish =
          (device.afterErase start.toNat extent pieces, start + UInt32.ofNat extent) ∧
        finish.toNat ≤ start.toNat + extent ∧
        start.toNat + extent ≤ max start.toNat (0x8000000 + board.mach.flashSize.toNat) ∧
        extent % 4 = 0 ∧ ∀ access ∈ pieces, access.Allowed board := by
  induction rounds generalizing device start with
  | zero =>
    refine ⟨0, [], ?_, by omega, Nat.le_max_left _ _, rfl, by simp⟩
    simp [erasePages, afterErase]
  | succ rounds induction =>
    by_cases more : start < finish
    · have less := UInt32.lt_iff_toNat_lt.mp more
      have begins := UInt32.le_iff_toNat_le.mp after
      have page := toNat_flashGetPageSize (lt_of_lt_of_le less inside)
      have sizes := pageSize_cases paged
      have nextStart : (start + (flashGetPageSize board.mach start).toUInt16.toUInt32).toNat =
          start.toNat + pageSize board.mach := by
        rw [UInt32.toNat_add, UInt16.toNat_toUInt32, page]
        omega
      have fits : start.toNat + pageSize board.mach ≤ 0x8000000 + board.mach.flashSize.toNat := by
        rcases sizes with ⟨isPage, isFlash⟩ | ⟨isPage, isFlash⟩
        all_goals
          rw [isPage] at aligned ⊢
          omega
      have nextAfter : board.appStartAddress ≤
          start + (flashGetPageSize board.mach start).toUInt16.toUInt32 := by
        rw [UInt32.le_iff_toNat_le, nextStart]
        omega
      have nextAligned : (start + (flashGetPageSize board.mach start).toUInt16.toUInt32).toNat %
          pageSize board.mach = 0 := by
        rw [nextStart, Nat.add_mod_right, aligned]
      rcases induction nextAfter nextAligned (by omega) with
        ⟨extent, pieces, result, reached, bounded, whole, allowed⟩
      rw [nextStart] at result reached bounded
      refine ⟨pageSize board.mach + extent,
        .erase start.toNat (pageSize board.mach) :: pieces, ?_, by omega, by omega, by omega, ?_⟩
      · rw [erasePages, if_pos more]
        dsimp only
        rw [flashErasePages, flashErasePages, page, erase_eq, result, afterErase_afterErase,
          singleton_append]
        congr 1
        apply UInt32.toNat_inj.mp
        rw [UInt32.toNat_add, nextStart, UInt32.toNat_add]
        simp only [UInt32.toNat_ofNat']
        omega
      · rw [forall_mem_cons]
        exact ⟨⟨begins, fits⟩, allowed⟩
    · have done : finish.toNat ≤ start.toNat := UInt32.le_iff_toNat_le.mp (UInt32.not_lt.mp more)
      refine ⟨0, [], ?_, by omega, Nat.le_max_left _ _, rfl, by simp⟩
      simp [erasePages, more, afterErase]

/-! ## Sectors -/

theorem sectorAddress_succ (sector : Nat) : sectorAddress (sector + 1) =
      sectorAddress sector + (flashGetSectorSize (UInt32.ofNat sector)).toNat := by
  simp [sectorAddress, range_succ, add_assoc]

theorem sectorAddress_mono (le : first ≤ second) : sectorAddress first ≤ sectorAddress second := by
  induction le with
  | refl => exact le_rfl
  | step _ induction =>
    rw [sectorAddress_succ]
    omega

theorem sectorAddress_le (isSector : sector ≤ 8) : sectorAddress sector ≤ 0x8080000 :=
  sectorAddress_mono isSector

theorem sectorAddress_aligned (sector : Nat) : sectorAddress sector % 4 = 0 := by
  induction sector with
  | zero => rfl
  | succ sector induction =>
    have whole : (flashGetSectorSize (UInt32.ofNat sector)).toNat % 4 = 0 := by
      unfold flashGetSectorSize
      split_ifs <;> rfl
    rw [sectorAddress_succ]
    omega

def InSector (address : UInt32) (sector : Nat) : Prop :=
  sectorAddress sector ≤ address.toNat ∧ address.toNat < sectorAddress (sector + 1)

def Searched (sectors : Nat) (address : UInt32) (page : Int) : Prop :=
  page = -1 ∧ sectorAddress sectors ≤ address.toNat ∨
    ∃ sector < sectors, page = (sector : Int) ∧ InSector address sector

theorem searched_step (searched : Searched sectors address page)
    (isStart : addrStart.toNat = sectorAddress sectors)
    (isEnd : addrEnd.toNat = sectorAddress (sectors + 1)) : Searched (sectors + 1) address
      (if page < 0 ∧ addrStart ≤ address ∧ address < addrEnd then (sectors : Int) else page) := by
  rcases searched with ⟨notFound, beyond⟩ | ⟨sector, before, isPage, inSector⟩
  · have begins : addrStart ≤ address := by
      rw [UInt32.le_iff_toNat_le, isStart]
      exact beyond
    subst notFound
    by_cases here : address < addrEnd
    · rw [if_pos ⟨by decide, begins, here⟩]
      have less := UInt32.lt_iff_toNat_lt.mp here
      rw [isEnd] at less
      exact .inr ⟨sectors, Nat.lt_succ_self _, rfl, beyond, less⟩
    rw [if_neg fun found => here found.2.2]
    have more := UInt32.le_iff_toNat_le.mp (UInt32.not_lt.mp here)
    rw [isEnd] at more
    exact .inl ⟨rfl, more⟩
  · subst isPage
    exact .inr ⟨sector, Nat.lt_succ_of_lt before, rfl, inSector⟩

theorem searched_foldl (isSector : sectors ≤ 8) (startAfter : flashBootAddress ≤ start)
    (finishAfter : flashBootAddress ≤ finish) :
    let search := (range sectors).foldl (searchSector start finish) ⟨-1, -1, flashBootAddress⟩
    search.addrStart.toNat = sectorAddress sectors ∧
      Searched sectors start search.startPage ∧ Searched sectors finish search.endPage := by
  induction sectors with
  | zero =>
    exact ⟨rfl, .inl ⟨rfl, UInt32.le_iff_toNat_le.mp startAfter⟩,
      .inl ⟨rfl, UInt32.le_iff_toNat_le.mp finishAfter⟩⟩
  | succ sectors induction =>
    rcases induction (by omega) with ⟨isStart, startSearched, finishSearched⟩
    rw [range_succ, foldl_append, foldl_cons, foldl_nil]
    generalize (range sectors).foldl (searchSector start finish)
      ⟨-1, -1, flashBootAddress⟩ = search at isStart startSearched finishSearched
    have isEnd : (search.addrStart + flashGetSectorSize (UInt32.ofNat sectors)).toNat =
        sectorAddress (sectors + 1) := by
      have bound := sectorAddress_le isSector
      rw [sectorAddress_succ] at bound ⊢
      rw [UInt32.toNat_add, isStart]
      omega
    exact ⟨isEnd, searched_step startSearched isStart isEnd,
      searched_step finishSearched isStart isEnd⟩

theorem foldl_eraseSector (start : UInt32) (first count : Nat) : ∃ extent,
      ((range count).map fun index : Nat => (first : Int) + index).foldl eraseSector
          (device, start) =
        (device.afterErase (sectorAddress first) extent
            ((range count).map fun index => .erase (sectorAddress (first + index))
              (flashGetSectorSize (UInt32.ofNat (first + index))).toNat),
          start + UInt32.ofNat extent) ∧
        sectorAddress first + extent = sectorAddress (first + count) := by
  induction count with
  | zero => exact ⟨0, by simp [afterErase], rfl⟩
  | succ count induction =>
    rcases induction with ⟨extent, result, reached⟩
    have sector : ((first : Int) + (count : Int)).toNat = first + count := by omega
    refine ⟨extent + (flashGetSectorSize (UInt32.ofNat (first + count))).toNat, ?_, ?_⟩
    · rw [range_succ, map_append, foldl_append, result, map_singleton,
        foldl_cons, foldl_nil, eraseSector, sector, flashEraseSector, erase_eq,
        ← reached, afterErase_afterErase, map_append, map_singleton, reached]
      rw [UInt32.add_assoc, UInt32.ofNat_add extent, UInt32.ofNat_toNat]
    · rw [← add_assoc, reached, ← add_assoc, sectorAddress_succ]

/-! ## A request -/

/-- The sectors from the first of the application to the one that holds the end. -/
theorem eraseSectors_spec (isStart : start.toNat = sectorAddress 1)
    (after : start.toNat ≤ finish.toNat) (inside : finish.toNat ≤ sectorAddress 6) : ∃ last extent,
      device.eraseSectors start finish =
          (device.afterErase start.toNat extent
            ((range last).map fun index => .erase (sectorAddress (1 + index))
              (flashGetSectorSize (UInt32.ofNat (1 + index))).toNat),
            start + UInt32.ofNat extent) ∧
        start.toNat + extent = sectorAddress (1 + last) ∧ InSector finish last := by
  have boot : flashBootAddress.toNat = sectorAddress 0 := rfl
  have first : sectorAddress 0 ≤ sectorAddress 1 := sectorAddress_mono (by omega)
  have startAfter : flashBootAddress ≤ start := by
    rw [UInt32.le_iff_toNat_le]
    omega
  have finishAfter : flashBootAddress ≤ finish := by
    rw [UInt32.le_iff_toNat_le]
    omega
  have end_lt : sectorAddress 6 < sectorAddress 8 := by decide
  rcases searched_foldl (Nat.le_refl 8) startAfter finishAfter with
    ⟨-, startSearched, finishSearched⟩
  rw [← searchSectors] at startSearched finishSearched
  rcases startSearched with ⟨-, missing⟩ | ⟨sector, -, isSector, holdsStart⟩
  · omega
  rcases finishSearched with ⟨-, missing⟩ | ⟨last, -, isLast, holdsFinish⟩
  · omega
  have one : sector = 1 := by
    rcases Nat.lt_trichotomy sector 1 with before | here | beyond
    · have less : sectorAddress (sector + 1) ≤ sectorAddress 1 := sectorAddress_mono before
      have bound := holdsStart.2
      omega
    · exact here
    have more : sectorAddress 2 ≤ sectorAddress sector := sectorAddress_mono beyond
    have bound := holdsStart.1
    have second : sectorAddress 1 < sectorAddress 2 := by decide
    omega
  subst one
  rcases foldl_eraseSector device start 1 last with ⟨extent, result, reached⟩
  refine ⟨last, extent, ?_, ?_, holdsFinish⟩
  · have count : ((last : Int) + 1 - (1 : Nat)).toNat = last := by omega
    rw [eraseSectors, isSector, isLast, count, result, isStart]
  · rw [isStart]
    exact reached

theorem toNat_appEnd (fits : size ≤ board.appSize) :
    (board.appStartAddress + size).toNat = board.appStartAddress.toNat + size.toNat ∧
      board.appStartAddress.toNat + size.toNat ≤ 0x8000000 + board.mach.flashSize.toNat := by
  have bound := UInt32.le_iff_toNat_le.mp fits
  rcases board.layout with ⟨start, appSize, small, large⟩
  rw [UInt32.toNat_add]
  omega

theorem eraseAddresses_of_paged (paged : mach ≠ .stm32f401) (start finish : UInt32) :
    eraseAddresses mach device start finish =
      erasePages mach (finish - start).toNat device start finish := by
  cases mach with
  | gd32f303 | stm32f103 => rfl
  | stm32f401 => exact absurd rfl paged

theorem sectors_allowed_iff (sectored : board.mach = .stm32f401)
    (start : board.appStartAddress.toNat = sectorAddress 1)
    (inside : finish.toNat ≤ sectorAddress 6) (holds : InSector finish last) :
    (∀ access ∈ (range last).map fun index => Access.erase (sectorAddress (1 + index))
        (flashGetSectorSize (UInt32.ofNat (1 + index))).toNat, access.Allowed board) ↔
      finish.toNat ≠ sectorAddress 6 := by
  have flash : flashBootAddress.toNat + board.mach.flashSize.toNat = sectorAddress 6 := by
    rw [sectored]
    decide
  have allowed (index : Nat) : (Access.erase (sectorAddress (1 + index))
      (flashGetSectorSize (UInt32.ofNat (1 + index))).toNat).Allowed board ↔
        sectorAddress (1 + index + 1) ≤ sectorAddress 6 := by
    have begins : sectorAddress 1 ≤ sectorAddress (1 + index) := sectorAddress_mono (by omega)
    rw [sectorAddress_succ]
    simp only [Access.Allowed, Board.Contains, start, flash, begins, true_and]
  simp only [forall_mem_map, mem_range, allowed]
  constructor
  · intro all same
    have positive : 0 < last := by
      rcases Nat.eq_zero_or_pos last with none | some
      · have bound := holds.2
        have first : sectorAddress 1 ≤ sectorAddress 6 := sectorAddress_mono (by omega)
        rw [none, zero_add] at bound
        omega
      · exact some
    have lastAllowed := all (last - 1) (by omega)
    have isLast : 1 + (last - 1) + 1 = last + 1 := by omega
    rw [isLast] at lastAllowed
    have bound := holds.2
    omega
  · intro notEnd index before
    apply sectorAddress_mono
    by_contra beyond
    have more : sectorAddress 6 ≤ sectorAddress last := sectorAddress_mono (by omega)
    have bound := holds.1
    omega

/-- The pages or sectors that a request covers are erased. They are all in the application, unless
the last sector of the application ends with the request. -/
theorem eraseAddresses_spec (board : Board) (fits : size ≤ board.appSize) : ∃ extent pieces,
      eraseAddresses board.mach device board.appStartAddress (board.appStartAddress + size) =
          (device.afterErase board.appStartAddress.toNat extent pieces,
            board.appStartAddress + UInt32.ofNat extent) ∧
        size.toNat ≤ extent ∧ extent ≤ 0x80000 ∧ extent % 4 = 0 ∧
        ((∀ access ∈ pieces, access.Allowed board) ↔
          (board.mach = .stm32f401 → size ≠ board.appSize)) := by
  rcases board.layout with ⟨start, appSize, small, large⟩
  rcases toNat_appEnd fits with ⟨isFinish, inside⟩
  by_cases sectored : board.mach = .stm32f401
  · have size4000 : board.bootloaderSize.toNat = 0x4000 := by
      simpa only [sectored, ne_eq, not_true_eq_false, and_false, false_or] using small
    have flash : board.mach.flashSize.toNat = 0x40000 := by
      rw [sectored]
      rfl
    have first : sectorAddress 1 = 0x8004000 := by decide
    have sixth : sectorAddress 6 = 0x8040000 := by decide
    have isStart : board.appStartAddress.toNat = sectorAddress 1 := by omega
    have finishInside : (board.appStartAddress + size).toNat ≤ sectorAddress 6 := by omega
    rcases eraseSectors_spec device isStart (by omega) finishInside with
      ⟨last, extent, result, reached, holds⟩
    have next : sectorAddress (1 + last) = sectorAddress (last + 1) := by rw [add_comm]
    have few : last ≤ 7 := by
      by_contra many
      have more : sectorAddress 8 ≤ sectorAddress last := sectorAddress_mono (by omega)
      have bound := holds.1
      have eighth : sectorAddress 8 = 0x8080000 := by decide
      omega
    have bound := holds.2
    have top : sectorAddress (last + 1) ≤ 0x8080000 := sectorAddress_le (Nat.succ_le_succ few)
    have isSectors : eraseAddresses board.mach device board.appStartAddress
        (board.appStartAddress + size) =
          device.eraseSectors board.appStartAddress (board.appStartAddress + size) := by
      rw [sectored]
      rfl
    have whole := sectorAddress_aligned (last + 1)
    refine ⟨extent, _, isSectors.trans result, by omega, by omega, by omega, ?_⟩
    rw [sectors_allowed_iff sectored isStart finishInside holds]
    simp only [sectored, true_imp_iff, ne_eq, ← UInt32.toNat_inj]
    omega
  · have aligned : board.appStartAddress.toNat % pageSize board.mach = 0 := by
      rcases pageSize_cases sectored with ⟨isPage, -⟩ | ⟨isPage, -⟩
      all_goals
        rw [isPage]
        omega
    have rounds : (board.appStartAddress + size - board.appStartAddress).toNat = size.toNat := by
      rw [UInt32.add_comm, UInt32.add_sub_cancel]
    rcases erasePages_spec board sectored (UInt32.le_refl _) (isFinish ▸ inside) aligned
      le_rfl with ⟨extent, pieces, result, reached, bounded, whole, allowed⟩
    have enough : (board.appStartAddress + size).toNat - board.appStartAddress.toNat =
        size.toNat := by omega
    rw [enough] at result
    refine ⟨extent, pieces, ?_, by omega, by omega, whole, ?_⟩
    · rw [eraseAddresses_of_paged _ sectored, rounds]
      exact result
    · exact iff_of_true allowed fun other => absurd other sectored

end BootDevice

end CentauriCarbon.Bootloader
