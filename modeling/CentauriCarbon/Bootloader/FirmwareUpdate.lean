import CentauriCarbon.Bootloader.Exchange
import CentauriCarbon.Bootloader.ServedRequests

/-! # A firmware update

The file is sent in chunks of 1024 bytes, each at its own offset. When the update has succeeded, the
application is the file, except for what the board makes of the bytes that do not fill a word.
-/

namespace CentauriCarbon.Bootloader

open List BootDevice ComParser

/-! ## One request -/

section Requests

variable {board : Board}

theorem readAt_dueCall (parser : ComParser) (cmd : UInt8) (payload : List UInt8) :
    readAt (dueCall (received parser cmd payload)).payload 0 payload.length = payload :=
  readAt_writeAt parser.payload 0 payload

theorem length_wordBytes_le (word : UInt32) : (wordBytes word).length ≤ comMaxPayload := by
  rw [length_wordBytes, comMaxPayload]
  omega

theorem eraseFlash_spec {next : Link} (settled : Settled link device) (fits : size ≤ board.appSize)
    (erased : eraseFlash board link size events = some next) :
    ∃ extent, size.toNat ≤ extent ∧ extent % 4 = 0 ∧
      next.com.device.flash = eraseRange device.flash board.appStartAddress.toNat extent ∧
      next.written = link.written ++ bootloaderPackageData cmdErase (wordBytes size) ∧
      Settled next next.com.device := by
  let call := dueCall (received link.com.parser cmdErase (wordBytes size))
  have isSize : readWord call.payload 0 = size := readWord_of_readAt (readAt_dueCall _ _ _)
  rcases handleErase_spec board device isSize fits with
    ⟨extent, reached, bounded, whole, flash, sent⟩
  have request : Request board link.com.parser device (handleErase board device call).1 cmdErase
      (wordBytes size) [] (wordBytes (UInt32.ofNat extent)) := by
    refine ⟨settled.isA5, length_wordBytes_le _, by decide, ?_, sent, length_wordBytes_le _⟩
    exact congrArg Prod.fst (if_pos rfl)
  rw [eraseFlash, ← append_nil (bootloaderPackageData cmdErase (wordBytes size))] at erased
  split at erased
  · cases erased
  next after ack found =>
    rcases request.sendAndWaitAck_spec settled found with ⟨-, isDevice, written, settledAfter⟩
    split at erased
    · cases erased
      refine ⟨extent, reached, whole, ?_, ?_, ?_⟩
      · rw [isDevice, flash]
      · rw [written, append_nil]
      · rw [isDevice]
        exact settledAfter rfl
    · cases erased

/-- What the host sends behind a request that is not the largest. -/
def garbage (exchange : Exchange) (length : Nat) : List UInt8 :=
  readAt exchange.stack (12 + comMinPackageSize + length) (packageSize - length)

theorem ackField_append (first second : UInt32) :
    ackField (wordBytes first ++ wordBytes second) 0 = first :=
  readWord_of_readAt rfl

theorem length_programPayload (data : List UInt8) (offset size : Nat) :
    (programPayload data offset data.length size).length = 12 + data.length := by
  simp only [programPayload, length_append, length_wordBytes, take_length]

theorem programRequest_eq (exchange : Exchange) (small : data.length ≤ packageSize)
    (offset size : Nat) : programRequest exchange (programPayload data offset data.length size) =
      bootloaderPackageData cmdProgram (programPayload data offset data.length size) ++
        garbage exchange data.length := by
  have length : (bootloaderPackageData cmdProgram
      (programPayload data offset data.length size)).length =
        12 + comMinPackageSize + data.length := by
    rw [length_bootloaderPackageData, length_programPayload]
    omega
  have parts : 12 + comMinPackageSize + packageSize =
      (bootloaderPackageData cmdProgram (programPayload data offset data.length size)).length +
        (packageSize - data.length) := by
    omega
  rw [programRequest, parts, readAt_add, readAt_writeAt, Nat.zero_add, length, garbage]
  congr 1
  apply map_congr_left
  intro index _
  exact writeAt_of_ge _ (by rw [length]; omega)

theorem programFlash_spec {next : Link} (settled : Settled link device) {data buf : List UInt8}
    {offset length size : Nat} (nonempty : 0 < data.length) (isData : data = buf.take data.length)
    (isLength : data.length = min packageSize length) (inside : offset + length ≤ size)
    (fits : size ≤ board.appSize.toNat) (noPair : ¬[0xa5, 0x5a] <:+: garbage exchange data.length)
    (done : programFlash board link buf offset length size exchange = some (next, plen)) :
    plen = 4 * wordsOf data.length ∧
      next.com.device.flash = programmed device.flash (board.appStartAddress.toNat + offset) data ∧
      next.written = link.written ++
        (bootloaderPackageData cmdProgram (programPayload data offset data.length size) ++
          garbage exchange data.length) ∧
      (data.length = packageSize → Settled next next.com.device) := by
  let payload := programPayload data offset data.length size
  let call := dueCall (received link.com.parser cmdProgram payload)
  have small : data.length ≤ packageSize := by omega
  have isCall : ProgramCall call data offset size := by
    refine ⟨?_, small, by omega⟩
    rw [← length_programPayload data offset size]
    exact readAt_dueCall _ _ _
  rcases handleProgram_spec isCall fits with ⟨flash, sent⟩
  let ack := wordBytes (UInt32.ofNat (4 * wordsOf data.length)) ++
    wordBytes (UInt32.ofNat (offset + 4 * wordsOf data.length))
  have request : Request board link.com.parser device (handleProgram board device call).1
      cmdProgram payload (garbage exchange data.length) ack := by
    refine ⟨settled.isA5, ?_, noPair, ?_, sent, Nat.le_of_ble_eq_true rfl⟩
    · rw [length_programPayload, comMaxPayload]
      unfold packageSize at small
      omega
    · rw [bootloaderComHandle]
      rfl
  have limited : (if (if offset + length > size then size - offset else length) > packageSize
      then packageSize else (if offset + length > size then size - offset else length)) =
        data.length := by
    rw [if_neg (by omega : ¬offset + length > size)]
    split <;> omega
  have isPayload : programPayload buf offset data.length size = payload := by
    simp only [payload, programPayload, take_length]
    rw [← isData]
  rw [programFlash, limited, isPayload, programRequest_eq exchange small] at done
  split at done
  · cases done
  next after answer found =>
    cases done
    rcases request.sendAndWaitAck_spec settled found with
      ⟨isAck, isDevice, written, settledAfter⟩
    refine ⟨?_, ?_, written, ?_⟩
    · have bound : 4 * wordsOf data.length ≤ data.length + 3 := by
        unfold wordsOf
        omega
      unfold packageSize at small
      rw [isAck, ackField_append, UInt32.toNat_toUInt16, UInt32.toNat_ofNat']
      omega
    · rw [isDevice, flash]
    · intro full
      rw [isDevice]
      apply settledAfter
      rw [garbage, full, Nat.sub_self, readAt_zero]

end Requests

/-! ## The file -/

def chunk (file : List UInt8) (index : Nat) : List UInt8 :=
  (file.drop (packageSize * index)).take packageSize

def chunkRequest (file : List UInt8) (index : Nat) : List UInt8 :=
  bootloaderPackageData cmdProgram (programPayload (chunk file index) (packageSize * index)
    (chunk file index).length file.length)

def lastChunk (file : List UInt8) : Nat := (file.length - 1) / packageSize

theorem length_chunk (file : List UInt8) (index : Nat) :
    (chunk file index).length = min packageSize (file.length - packageSize * index) := by
  rw [chunk, length_take, length_drop]

variable {file : List UInt8}

theorem length_chunk_of_lt (before : index < lastChunk file) :
    (chunk file index).length = packageSize := by
  unfold lastChunk packageSize at before
  rw [length_chunk]
  unfold packageSize
  omega

theorem take_append_chunk (file : List UInt8) (index : Nat) :
    file.take (packageSize * index) ++ chunk file index =
      file.take (packageSize * (index + 1)) := by
  rw [chunk, Nat.mul_succ, take_add]

theorem programmed_of_whole (flash : Nat → UInt8) (address : Nat) (whole : data.length % 4 = 0) :
    programmed flash address data = writeAt flash address data := by
  have all : 4 * (data.length / 4) = data.length := by omega
  simp only [programmed, if_pos whole, all, take_length]

structure InBuffer (file : List UInt8) (foffset index : Nat) : Prop where
  aligned : foffset % packageSize = 0
  begins : foffset ≤ packageSize * index
  ends : packageSize * index < foffset + min bufSize (file.length - foffset)

namespace InBuffer

variable (inBuffer : InBuffer file foffset index)

include inBuffer

theorem index_le : index ≤ lastChunk file := by
  have begins := inBuffer.begins
  have ends := inBuffer.ends
  unfold lastChunk
  unfold packageSize bufSize at *
  omega

theorem length_chunk_eq : (chunk file index).length =
    min packageSize (foffset + min bufSize (file.length - foffset) - packageSize * index) := by
  rcases inBuffer with ⟨aligned, begins, ends⟩
  rw [length_chunk]
  unfold packageSize bufSize at *
  omega

theorem chunk_eq : chunk file index =
    (((file.drop foffset).take (min bufSize (file.length - foffset))).drop
      (packageSize * index - foffset)).take (chunk file index).length := by
  have begins := inBuffer.begins
  have isLength := inBuffer.length_chunk_eq
  rw [drop_take, drop_drop, Nat.add_sub_cancel' begins, take_take, Nat.min_eq_left]
  · rw [length_chunk, ← length_drop, ← take_eq_take_min]
    rfl
  · omega

theorem ends_of_last (last : index = lastChunk file) :
    foffset + min bufSize (file.length - foffset) = file.length := by
  rcases inBuffer with ⟨aligned, begins, ends⟩
  unfold lastChunk at last
  unfold packageSize bufSize at *
  omega

/-- Behind a chunk that is not the last, the next one is in this buffer or in the next. -/
theorem next (before : index < lastChunk file) :
    if packageSize * (index + 1) < foffset + min bufSize (file.length - foffset) then
      InBuffer file foffset (index + 1)
    else foffset + min bufSize (file.length - foffset) = packageSize * (index + 1) ∧
      InBuffer file (packageSize * (index + 1)) (index + 1) := by
  rcases inBuffer with ⟨aligned, begins, ends⟩
  unfold lastChunk at before
  split
  next inside =>
    refine ⟨aligned, ?_, inside⟩
    unfold packageSize at *
    omega
  next outside =>
    unfold packageSize bufSize at *
    refine ⟨by omega, ?_, ?_, ?_⟩
    · unfold packageSize
      omega
    · exact le_rfl
    · unfold packageSize bufSize
      omega

theorem programFlash_chunk {board : Board} {link next : Link} {device : BootDevice}
    (fits : file.length ≤ board.appSize.toNat) (settled : Settled link device)
    (noPair : ¬[0xa5, 0x5a] <:+: garbage exchange (chunk file index).length)
    (done : programFlash board link
      (((file.drop foffset).take (min bufSize (file.length - foffset))).drop
        (packageSize * index - foffset))
      (packageSize * index) (foffset + min bufSize (file.length - foffset) - packageSize * index)
      file.length exchange = some (next, plen)) :
    plen = 4 * wordsOf (chunk file index).length ∧
      next.com.device.flash = programmed device.flash
        (board.appStartAddress.toNat + packageSize * index) (chunk file index) ∧
      next.written = link.written ++
        (chunkRequest file index ++ garbage exchange (chunk file index).length) ∧
      ((chunk file index).length = packageSize → Settled next next.com.device) := by
  have begins := inBuffer.begins
  have ends := inBuffer.ends
  have isLength := inBuffer.length_chunk_eq
  have nonempty : 0 < (chunk file index).length := by
    unfold packageSize at *
    omega
  exact programFlash_spec settled nonempty inBuffer.chunk_eq isLength (by omega) fits noPair done

end InBuffer

section Chunks

variable {board : Board} (fits : file.length ≤ board.appSize.toNat) {link after : Link}
  {device : BootDevice} (settled : Settled link device) (inBuffer : InBuffer file foffset index)
  (done : programFile board file (exchange :: exchanges) foffset (packageSize * index - foffset)
    (packageSize * index) link = some after)

include fits settled inBuffer done

/-- A chunk that is not the last one fills its package, and the next one is programmed then. -/
theorem programFile_chunk (before : index < lastChunk file) :
    ∃ next buffer, InBuffer file buffer (index + 1) ∧
      programFile board file exchanges buffer (packageSize * (index + 1) - buffer)
        (packageSize * (index + 1)) next = some after ∧
      next.com.device.flash = writeAt device.flash
        (board.appStartAddress.toNat + packageSize * index) (chunk file index) ∧
      next.written = link.written ++ chunkRequest file index ∧
      Settled next next.com.device := by
  have full := length_chunk_of_lt before
  have begins := inBuffer.begins
  have noGarbage : garbage exchange (chunk file index).length = [] := by
    rw [garbage, full, Nat.sub_self, readAt_zero]
  rw [programFile] at done
  split at done
  · cases done
  next next plen served =>
    rcases inBuffer.programFlash_chunk fits settled (by rw [noGarbage]; decide) served with
      ⟨isPlen, flash, written, settledNext⟩
    rw [programmed_of_whole _ _ (by rw [full]; rfl)] at flash
    rw [noGarbage, append_nil] at written
    have place : packageSize * index + plen = packageSize * (index + 1) := by
      rw [isPlen, full, Nat.mul_succ]
      rfl
    have somewhere := inBuffer.next before
    rw [if_neg (by unfold packageSize at *; omega), place] at done
    split at done
    next here =>
      have len : packageSize * index - foffset + plen =
          packageSize * (index + 1) - foffset := by omega
      rw [if_pos here] at somewhere
      rw [len] at done
      exact ⟨next, foffset, somewhere, done, flash, written, settledNext full⟩
    next there =>
      rw [if_neg there] at somewhere
      rcases somewhere with ⟨isEnd, nextInBuffer⟩
      rw [isEnd] at done
      split at done
      · exact ⟨next, _, nextInBuffer, by rw [Nat.sub_self]; exact done, flash, written,
          settledNext full⟩
      next finished =>
        have more := nextInBuffer.ends
        omega

theorem programFile_lastChunk (last : index = lastChunk file)
    (noPair : ¬[0xa5, 0x5a] <:+: garbage exchange (chunk file index).length) :
    after.written = link.written ++
        (chunkRequest file index ++ garbage exchange (chunk file index).length) ∧
      after.com.device.flash = programmed device.flash
        (board.appStartAddress.toNat + packageSize * index) (chunk file index) := by
  have isEnd := inBuffer.ends_of_last last
  have begins := inBuffer.begins
  have isLength := inBuffer.length_chunk_eq
  rw [programFile] at done
  split at done
  · cases done
  next next plen served =>
    rcases inBuffer.programFlash_chunk fits settled noPair served with
      ⟨isPlen, flash, written, -⟩
    have whole : file.length ≤ packageSize * index + plen := by
      rw [isPlen, wordsOf]
      unfold lastChunk at last
      unfold packageSize at *
      omega
    have ends := inBuffer.ends
    have more : plen ≠ 0 := by omega
    rw [if_neg more, if_neg (by omega), if_neg (by omega)] at done
    cases done
    exact ⟨written, flash⟩

end Chunks

theorem programFile_spec {board : Board} {erased : Nat → UInt8}
    (fits : file.length ≤ board.appSize.toNat) {link after : Link} {device : BootDevice}
    {index foffset : Nat} (settled : Settled link device)
    (isFlash : device.flash =
      writeAt erased board.appStartAddress.toNat (file.take (packageSize * index)))
    (inBuffer : InBuffer file foffset index)
    (harmless : ∀ exchange, exchanges[lastChunk file - index]? = some exchange →
      ¬[0xa5, 0x5a] <:+: garbage exchange (chunk file (lastChunk file)).length)
    (done : programFile board file exchanges foffset (packageSize * index - foffset)
      (packageSize * index) link = some after) :
    (∃ rest, after.written = link.written ++
        ((range' index (lastChunk file + 1 - index)).flatMap (chunkRequest file) ++ rest)) ∧
      after.com.device.flash =
        programmed (writeAt erased board.appStartAddress.toNat
            (file.take (packageSize * lastChunk file)))
          (board.appStartAddress.toNat + packageSize * lastChunk file)
          (chunk file (lastChunk file)) := by
  induction exchanges generalizing link device index foffset with
  | nil => cases done
  | cons exchange exchanges induction =>
    rcases Nat.lt_or_eq_of_le inBuffer.index_le with before | last
    · rcases programFile_chunk fits settled inBuffer done before with
        ⟨next, buffer, nextInBuffer, nextDone, flash, written, settledNext⟩
      have nextFlash : next.com.device.flash = writeAt erased
          board.appStartAddress.toNat (file.take (packageSize * (index + 1))) := by
        have begins := inBuffer.begins
        have ends := inBuffer.ends
        have taken : (file.take (packageSize * index)).length = packageSize * index := by
          rw [length_take]
          omega
        rw [flash, isFlash, ← take_append_chunk, writeAt_append, taken]
      have place : lastChunk file - index = lastChunk file - (index + 1) + 1 := by omega
      rw [place] at harmless
      rcases induction settledNext nextFlash nextInBuffer harmless nextDone with
        ⟨⟨rest, isWritten⟩, final⟩
      refine ⟨⟨rest, ?_⟩, final⟩
      have count : lastChunk file + 1 - index = lastChunk file + 1 - (index + 1) + 1 := by omega
      rw [isWritten, written, count, range'_succ, flatMap_cons, append_assoc, append_assoc]
    · subst last
      rcases programFile_lastChunk fits settled inBuffer done rfl
        (harmless exchange (by rw [Nat.sub_self]; rfl)) with ⟨written, flash⟩
      refine ⟨⟨garbage exchange (chunk file (lastChunk file)).length, ?_⟩, by rw [flash, isFlash]⟩
      rw [written, Nat.add_sub_cancel_left, range'_one, flatMap_singleton]

end CentauriCarbon.Bootloader
