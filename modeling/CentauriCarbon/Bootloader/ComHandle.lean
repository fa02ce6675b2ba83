import CentauriCarbon.Bootloader.ComParser
import CentauriCarbon.Bootloader.Flash

/-! # Requests to the bootloader

`bootloader.c`: what the bootloader does with a package.
-/

namespace CentauriCarbon.Bootloader

namespace BootDevice

def cmdErase : UInt8 := 0

def cmdProgram : UInt8 := 1

def cmdJump : UInt8 := 2

def cmdPing : UInt8 := 3

variable (device : BootDevice) (call : ComCall)

def sendAck (cmd : UInt8) (ack : List UInt8) : BootDevice :=
  { device with sent := device.sent ++ bootloaderPackageData cmd ack }

def erasePages (mach : Mach) : Nat → BootDevice → UInt32 → UInt32 → BootDevice × UInt32
  | 0, device, startAddress, _ => (device, startAddress)
  | rounds + 1, device, startAddress, endAddress =>
    if startAddress < endAddress then
      let pageSize := (flashGetPageSize mach startAddress).toUInt16
      erasePages mach rounds (device.flashErasePages startAddress [pageSize])
        (startAddress + pageSize.toUInt32) endAddress
    else (device, startAddress)

structure SectorSearch where
  startPage : Int
  endPage : Int
  addrStart : UInt32

def searchSector (startAddress endAddress : UInt32) (search : SectorSearch) (page : Nat) :
    SectorSearch :=
  let addrEnd := search.addrStart + flashGetSectorSize (UInt32.ofNat page)
  { startPage :=
      if search.startPage < 0 ∧ search.addrStart ≤ startAddress ∧ startAddress < addrEnd then page
      else search.startPage
    endPage :=
      if search.endPage < 0 ∧ search.addrStart ≤ endAddress ∧ endAddress < addrEnd then page
      else search.endPage
    addrStart := addrEnd }

def searchSectors (startAddress endAddress : UInt32) : SectorSearch :=
  (List.range 8).foldl (searchSector startAddress endAddress) ⟨-1, -1, flashBootAddress⟩

def eraseSector (state : BootDevice × UInt32) (sector : Int) : BootDevice × UInt32 :=
  (state.1.flashEraseSector sector.toNat, state.2 + flashGetSectorSize (UInt32.ofNat sector.toNat))

def eraseSectors (startAddress endAddress : UInt32) : BootDevice × UInt32 :=
  let search := searchSectors startAddress endAddress
  ((List.range (search.endPage + 1 - search.startPage).toNat).map
    fun index : Nat => search.startPage + index).foldl eraseSector (device, startAddress)

def eraseAddresses (mach : Mach) (device : BootDevice) (startAddress endAddress : UInt32) :
    BootDevice × UInt32 :=
  match mach with
  | .gd32f303 | .stm32f103 =>
    erasePages mach (endAddress - startAddress).toNat device startAddress endAddress
  | .stm32f401 => device.eraseSectors startAddress endAddress

def cancelJump : BootDevice :=
  if device.mainSta = .jumpToApp then { device with mainSta := .idle, timer := none } else device

def handleErase (board : Board) (device : BootDevice) (call : ComCall) :
    BootDevice × (Nat → UInt8) :=
  let requested := readWord call.payload 0
  let size := if requested > board.appSize then 0 else requested
  let payload :=
    if requested > board.appSize then writeAt call.payload 0 (wordBytes 0) else call.payload
  let appStartAddress := board.appStartAddress
  let erased := eraseAddresses board.mach (device.use 0 4 call.len.toNat).cancelJump
    appStartAddress (appStartAddress + size)
  (erased.1.sendAck cmdErase (wordBytes (erased.2 - appStartAddress)), payload)

def tailWord (word : UInt32) (bytes : List UInt8) : UInt32 :=
  bytes.zipIdx.foldl (fun word byte =>
    word &&& (~~~((0xff : UInt32) <<< UInt32.ofNat (3 - byte.2)) |||
      byte.1.toUInt32 <<< UInt32.ofNat (8 * byte.2))) word

def programWords (appStartAddress startAddress
    endAddress : UInt32) : BootDevice × UInt32 × UInt16 :=
  let wordCount := ((endAddress - startAddress) / 4).toUInt16
  if wordCount > 0 then
    let wordCount :=
      if startAddress = appStartAddress then ((endAddress - startAddress) / 4).toUInt16
      else wordCount
    let words := (List.range wordCount.toNat).map fun index =>
      readWord call.payload (12 + 4 * index)
    ((device.use 12 (4 * wordCount.toNat) call.len.toNat).flashWordProgram startAddress words,
      startAddress + 4 * wordCount.toUInt32, wordCount)
  else (device, startAddress, 0)

def programTail (data : Nat) (startAddress endAddress : UInt32) : BootDevice × UInt32 :=
  if startAddress < endAddress then
    let byteCount := (endAddress - startAddress).toUInt8
    let word := tailWord (readWord device.flash startAddress.toNat)
      (readAt call.payload data byteCount.toNat)
    ((device.use data byteCount.toNat call.len.toNat).flashWordProgram startAddress [word],
      startAddress + 4)
  else (device, startAddress)

def handleProgram (board : Board) (device : BootDevice) (call : ComCall) :
    BootDevice × (Nat → UInt8) :=
  let offset := readWord call.payload 0
  let requested := readWord call.payload 4
  let size := readWord call.payload 8
  let length := if offset + requested > size then 0 else requested
  let payload :=
    if offset + requested > size then writeAt call.payload 4 (wordBytes 0) else call.payload
  let appStartAddress := board.appStartAddress
  let endAddress := appStartAddress + offset + length
  let words := (device.use 0 12 call.len.toNat).programWords call appStartAddress
    (appStartAddress + offset) endAddress
  let tail := words.1.programTail call (12 + 4 * words.2.2.toNat) words.2.1 endAddress
  (tail.1.sendAck cmdProgram (wordBytes (tail.2 - appStartAddress - offset) ++
    wordBytes (tail.2 - appStartAddress)), payload)

def handleJump : BootDevice × (Nat → UInt8) :=
  ({ device with mainSta := .jumpToApp, request := 0, timer := some 1000 }, call.payload)

def handlePing : BootDevice × (Nat → UInt8) :=
  let used := device.use 0 4 call.len.toNat
  let waiting := if used.mainSta = .jumpToApp then { used with timer := some 50000 } else used
  (waiting.sendAck cmdPing (wordBytes (readWord call.payload 0)), call.payload)

end BootDevice

open BootDevice in
def bootloaderComHandle (board : Board) : ComHandle BootDevice := fun device call =>
  if call.cmd = cmdErase then handleErase board device call
  else if call.cmd = cmdProgram then handleProgram board device call
  else if call.cmd = cmdJump then handleJump device call
  else if call.cmd = cmdPing then handlePing device call
  else (device, call.payload)

end CentauriCarbon.Bootloader
