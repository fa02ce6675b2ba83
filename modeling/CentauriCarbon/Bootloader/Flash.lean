import CentauriCarbon.Foundation.Memory

/-! # Flash of the boards

`flash.c` and the options that choose a board: page and sector sizes, erasing and programming. The
device keeps a record of the accesses to its flash and to the payload of a request.
-/

namespace CentauriCarbon.Bootloader

inductive Mach where
  | gd32f303
  | stm32f103
  | stm32f401
  deriving DecidableEq

def Mach.flashSize : Mach → UInt32
  | .gd32f303 => 0x40000
  | .stm32f103 => 0x10000
  | .stm32f401 => 0x40000

structure Board where
  mach : Mach
  bootloaderSize : UInt32
  supported : bootloaderSize = 0x2000 ∧ mach ≠ .stm32f401 ∨ bootloaderSize = 0x4000

def flashBootAddress : UInt32 := 0x8000000

def Board.appStartAddress (board : Board) : UInt32 := flashBootAddress + board.bootloaderSize

def Board.appSize (board : Board) : UInt32 := board.mach.flashSize - board.bootloaderSize

/-- `flash_get_page_size`; the last board has no pages. -/
def flashGetPageSize (mach : Mach) (startAddress : UInt32) : UInt32 :=
  match mach with
  | .gd32f303 =>
    if startAddress < 0x08080000 then 0x800
    else if startAddress < 0x08300000 then 0x1000
    else 0
  | .stm32f103 => if startAddress < 0x08020000 then 0x400 else 0
  | .stm32f401 => 0

def flashGetSectorSize (sector : UInt32) : UInt32 :=
  if sector ≤ 3 then 0x4000
  else if sector ≤ 4 then 0x10000
  else if sector ≤ 7 then 0x20000
  else 0

/-- What a request makes the device do. A use of the payload carries the length that was given. -/
inductive Access where
  | payload (start count len : Nat)
  | erase (address size : Nat)
  | program (address : Nat)
  deriving DecidableEq

inductive MainSta where
  | idle
  | jumpToApp
  deriving DecidableEq

/-- The device: `timer` is the delay in microseconds that `bootloader_main_timer` was given if it
is running, `request` the second backup register and `sent` the bytes sent so far. -/
structure BootDevice where
  flash : Nat → UInt8
  mainSta : MainSta
  timer : Option UInt32
  request : UInt16
  sent : List UInt8
  accesses : List Access

namespace BootDevice

def use (device : BootDevice) (start count len : Nat) : BootDevice :=
  { device with accesses := device.accesses ++ [.payload start count len] }

def eraseRange (flash : Nat → UInt8) (address size : Nat) : Nat → UInt8 :=
  fun index => if address ≤ index ∧ index < address + size then 0xff else flash index

def erase (device : BootDevice) (address size : Nat) : BootDevice :=
  { device with
    flash := eraseRange device.flash address size
    accesses := device.accesses ++ [.erase address size] }

def flashErasePages (device : BootDevice) (startAddress : UInt32) : List UInt16 → BootDevice
  | [] => device
  | pageSize :: pageSizes =>
    flashErasePages (device.erase startAddress.toNat pageSize.toNat)
      (startAddress + pageSize.toUInt32) pageSizes

def sectorAddress (sector : Nat) : Nat :=
  flashBootAddress.toNat +
    ((List.range sector).map fun index => (flashGetSectorSize (UInt32.ofNat index)).toNat).sum

def flashEraseSector (device : BootDevice) (sectorNum : Nat) : BootDevice :=
  device.erase (sectorAddress sectorNum) (flashGetSectorSize (UInt32.ofNat sectorNum)).toNat

def fmcWordProgram (device : BootDevice) (address word : UInt32) : BootDevice :=
  { device with
    flash := writeAt device.flash address.toNat (wordBytes word)
    accesses := device.accesses ++ [.program address.toNat] }

def flashWordProgram (device : BootDevice) (address : UInt32) : List UInt32 → BootDevice
  | [] => device
  | word :: words => flashWordProgram (device.fmcWordProgram address word) (address + 4) words

end BootDevice

def smallBoard : Board := ⟨.stm32f103, 0x2000, .inl ⟨rfl, nofun⟩⟩

def blankDevice : BootDevice := ⟨fun _ => 0xff, .idle, none, 0, [], []⟩

end CentauriCarbon.Bootloader
