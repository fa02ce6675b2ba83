import CentauriCarbon.Bootloader.ComHandle
import CentauriCarbon.Bootloader.Reception

/-! # The host's side of a firmware update

`serial_bootloader.cpp` over a link that loses nothing. While the host waits for an answer, bytes
are delivered to the board, its task runs and the host reads what the board has sent.
-/

namespace CentauriCarbon.Bootloader

open BootDevice ComParser Com

/-- The link and the board behind it: the bytes under way to the board, the number of bytes that the
host has read of those the board has sent, and all bytes that the host has written. -/
structure Link where
  toMcu : List UInt8
  com : Com BootDevice
  read : Nat
  written : List UInt8

inductive LinkEvent where
  | deliver (count : Nat)
  | task
  | read (count : Nat)

namespace Link

def write (link : Link) (buf : List UInt8) : Link :=
  { link with toMcu := link.toMcu ++ buf, written := link.written ++ buf }

/-- Bytes reach the ring buffer of the board when it has room for them. -/
def deliver (link : Link) (count : Nat) : Link :=
  if link.com.rb.used + (link.toMcu.take count).length ≤ link.com.rb.size.toNat then
    { link with
      toMcu := link.toMcu.drop count
      com := link.com.bootloaderCommitData (link.toMcu.take count) }
  else link

def task (board : Board) (link : Link) : Link :=
  { link with com := link.com.bootloaderComHandlerTask (bootloaderComHandle board) }

def incoming (link : Link) (count : Nat) : List UInt8 :=
  (link.com.device.sent.drop link.read).take (min count 1024)

end Link

/-- What the host does with a package: the payload of one with the right command is the answer. The
three variables that it clears are set again before they are used. -/
def ackHandle (cmd : UInt8) (ackLen : Nat) : ComHandle (Option (List UInt8)) := fun ack call =>
  (if call.cmd = cmd then some (readAt call.payload 0 ackLen) else ack, call.payload)

def waitAck (board : Board) (cmd : UInt8) (ackLen : Nat) :
    List LinkEvent → Link → ComParser × Option (List UInt8) → Option (Link × List UInt8)
  | [], _, _ => none
  | .deliver count :: events, link, host =>
    waitAck board cmd ackLen events (link.deliver count) host
  | .task :: events, link, host => waitAck board cmd ackLen events (link.task board) host
  | .read count :: events, link, host =>
    let bytes := link.incoming count
    let parsed := parse (ackHandle cmd ackLen) (2 * bytes.length + 1) host.1 host.2 bytes
    let next := { link with read := link.read + bytes.length }
    match parsed.2 with
    | some ack => some (next, ack)
    | none => waitAck board cmd ackLen events next parsed

def sendAndWaitAck (board : Board) (link : Link) (req : List UInt8) (cmd : UInt8) (ackLen : Nat)
    (events : List LinkEvent) : Option (Link × List UInt8) :=
  waitAck board cmd ackLen events (link.write req) (initial, none)

def ackField (ack : List UInt8) (position : Nat) : UInt32 :=
  readWord (fun index => ack.getD index 0) position

def eraseFlash (board : Board) (link : Link) (size : UInt32) (events : List LinkEvent) :
    Option Link :=
  match sendAndWaitAck board link (bootloaderPackageData cmdErase (wordBytes size)) cmdErase 4
      events with
  | none => none
  | some (next, ack) => if size ≤ ackField ack 0 then some next else none

def packageSize : Nat := 1024

/-- What happens while the host waits for an answer, and what the stack holds before the request is
put there. -/
structure Exchange where
  events : List LinkEvent
  stack : Nat → UInt8

def programPayload (buf : List UInt8) (offset length size : Nat) : List UInt8 :=
  wordBytes (UInt32.ofNat offset) ++ wordBytes (UInt32.ofNat length) ++
    wordBytes (UInt32.ofNat size) ++ buf.take length

/-- The request always has the size of the largest one. -/
def programRequest (exchange : Exchange) (payload : List UInt8) : List UInt8 :=
  readAt (writeAt exchange.stack 0 (bootloaderPackageData cmdProgram payload)) 0
    (12 + comMinPackageSize + packageSize)

def programFlash (board : Board) (link : Link) (buf : List UInt8) (offset length size : Nat)
    (exchange : Exchange) : Option (Link × Nat) :=
  let inside := if offset + length > size then size - offset else length
  let limited := if inside > packageSize then packageSize else inside
  let req := programRequest exchange (programPayload buf offset limited size)
  match sendAndWaitAck board link req cmdProgram 8 exchange.events with
  | none => none
  | some (next, ack) => some (next, (ackField ack 0).toUInt16.toNat)

def bufSize : Nat := 4096

/-- The two loops of `update` behind the erasing: `foffset` is the place in the file of the buffer,
`len` the place in the buffer and `flashStart` the place in the flash. -/
def programFile (board : Board) (file : List UInt8) :
    List Exchange → Nat → Nat → Nat → Link → Option Link
  | [], _, _, _, _ => none
  | exchange :: exchanges, foffset, len, flashStart, link =>
    let flength := min bufSize (file.length - foffset)
    let buf := (file.drop foffset).take flength
    let flashEnd := foffset + flength
    match programFlash board link (buf.drop len) flashStart (flashEnd - flashStart) file.length
        exchange with
    | none => none
    | some (next, plen) =>
      if plen = 0 then none
      else if flashStart + plen < flashEnd then
        programFile board file exchanges foffset (len + plen) (flashStart + plen) next
      else if flashEnd < file.length then
        programFile board file exchanges flashEnd 0 flashEnd next
      else some next

def update (board : Board) (link : Link) (file : List UInt8) (events : List LinkEvent)
    (exchanges : List Exchange) : Option Link :=
  match eraseFlash board link (UInt32.ofNat file.length) events with
  | none => none
  | some next => programFile board file exchanges 0 0 0 next

end CentauriCarbon.Bootloader
