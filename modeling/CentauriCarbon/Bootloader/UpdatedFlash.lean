import Mathlib.Tactic.IntervalCases
import CentauriCarbon.Bootloader.FirmwareUpdate

/-! # The flash after an update

The bytes that do not fill a word come out right only if they are the ones that the board always
writes in their place.
-/

namespace CentauriCarbon.Bootloader

open List BootDevice ComParser

section TailWord

variable (byte0 byte1 byte2 : UInt8)

theorem tailWord_one : (tailWord 0xffffffff [byte0] >>> 8).toUInt8 = 0xf8 := by
  simp only [tailWord, zipIdx_cons, zipIdx_nil, foldl_cons, foldl_nil]
  apply UInt8.eq_of_toBitVec_eq
  ext bit inside
  interval_cases bit <;> simp

theorem tailWord_two : tailWord 0xffffffff [byte0, byte1] = 0xfffff803 := by
  simp only [tailWord, zipIdx_cons, zipIdx_nil, foldl_cons, foldl_nil]
  apply UInt32.eq_of_toBitVec_eq
  ext bit inside
  interval_cases bit <;> simp

theorem tailWord_three : tailWord 0xffffffff [byte0, byte1, byte2] = 0xfffff801 := by
  simp only [tailWord, zipIdx_cons, zipIdx_nil, foldl_cons, foldl_nil]
  apply UInt32.eq_of_toBitVec_eq
  ext bit inside
  interval_cases bit <;> simp

end TailWord

/-- The bytes at the end of a file that are programmed as they are. -/
def TailRight (tail : List UInt8) : Prop :=
  tail = [] ∨ tail = [0x03, 0xf8] ∨ tail = [0x01, 0xf8, 0xff]

/-- The last word of an erased flash is right exactly for these bytes. -/
theorem wordBytes_tailWord_iff {tail : List UInt8} (some : tail ≠ []) (few : tail.length < 4) :
    wordBytes (tailWord 0xffffffff tail) = tail ++ replicate (4 - tail.length) 0xff ↔
      TailRight tail := by
  match tail, some, few with
  | [byte0], _, _ =>
    have second := tailWord_one byte0
    simp only [wordBytes, TailRight, second]
    simp [replicate]
  | [byte0, byte1], _, _ =>
    have bytes : wordBytes 0xfffff803 = [0x03, 0xf8, 0xff, 0xff] := rfl
    rw [tailWord_two, bytes]
    constructor
    · intro same
      cases same
      exact .inr (.inl rfl)
    · rintro (same | same | same) <;> cases same
      rfl
  | [byte0, byte1, byte2], _, _ =>
    have bytes : wordBytes 0xfffff801 = [0x01, 0xf8, 0xff, 0xff] := rfl
    rw [tailWord_three, bytes]
    constructor
    · intro same
      cases same
      exact .inr (.inr rfl)
    · rintro (same | same | same) <;> cases same
      rfl

/-! ## The whole flash -/

/-- The application is the file, what follows is as the board has erased it, and the bootloader
is as it was. -/
structure Updated (board : Board) (before erased after : Nat → UInt8)
    (file : List UInt8) : Prop where
  holdsFile : readAt after board.appStartAddress.toNat file.length = file
  restErased : ∀ address, board.appStartAddress.toNat + file.length ≤ address →
    after address = erased address
  bootUnchanged : ∀ address < board.appStartAddress.toNat, after address = before address

/-- What is written to the erased application is the file, and erased bytes behind it. -/
theorem updated_iff (board : Board) (before : Nat → UInt8) {file content : List UInt8}
    (longer : file.length ≤ content.length) (inside : content.length ≤ extent) :
    Updated board before (eraseRange before board.appStartAddress.toNat extent)
        (writeAt (eraseRange before board.appStartAddress.toNat extent)
          board.appStartAddress.toNat content) file ↔
      content = file ++ replicate (content.length - file.length) 0xff := by
  have read := readAt_writeAt_part (eraseRange before board.appStartAddress.toNat extent)
    board.appStartAddress.toNat (by omega : 0 + file.length ≤ content.length)
  rw [drop_zero, add_zero] at read
  have erased {address : Nat} (after : board.appStartAddress.toNat ≤ address)
      (covered : address < board.appStartAddress.toNat + extent) :
      eraseRange before board.appStartAddress.toNat extent address = 0xff := by
    rw [eraseRange, if_pos ⟨after, covered⟩]
  constructor
  · intro updated
    have first := updated.holdsFile
    rw [read] at first
    conv_lhs => rw [← take_append_drop file.length content, first]
    congr 1
    apply eq_replicate_iff.mpr
    refine ⟨by rw [length_drop], ?_⟩
    intro byte isMember
    rcases mem_iff_getElem.mp isMember with ⟨index, bound, isByte⟩
    rw [length_drop] at bound
    rw [getElem_drop] at isByte
    have rest := updated.restErased (board.appStartAddress.toNat + (file.length + index)) (by omega)
    rw [writeAt_add _ _ (by omega), isByte, erased (by omega) (by omega)] at rest
    exact rest
  intro isContent
  refine ⟨?_, ?_, ?_⟩
  · rw [read, isContent, take_left' rfl]
  · intro address behind
    rcases lt_or_ge address (board.appStartAddress.toNat + content.length) with
      written | beyond
    · have place : address = board.appStartAddress.toNat +
          (address - board.appStartAddress.toNat) := by omega
      rw [erased (by omega) (by omega), place, writeAt_add _ _ (by omega)]
      have padding : content[address - board.appStartAddress.toNat]? = some 0xff := by
        rw [isContent, getElem?_append_right (by omega), getElem?_replicate, if_pos (by omega)]
      rw [getElem?_eq_getElem (by omega)] at padding
      exact Option.some.inj padding
    · exact writeAt_of_ge _ beyond
  · intro address boot
    rw [writeAt_of_lt _ _ boot, eraseRange, if_neg (by omega)]

def content (file : List UInt8) : List UInt8 :=
  let whole := 4 * (file.length / 4)
  file.take whole ++
    if file.length % 4 = 0 then [] else wordBytes (tailWord 0xffffffff (file.drop whole))

variable (file : List UInt8) (before : Nat → UInt8)

theorem chunk_lastChunk :
    chunk file (lastChunk file) = file.drop (packageSize * lastChunk file) := by
  rw [chunk, take_of_length_le]
  rw [length_drop, lastChunk]
  unfold packageSize
  omega

theorem readWord_erased (behind : written.length ≤ place) (inside : place + 4 ≤ extent) :
    readWord (writeAt (eraseRange before address extent) address written) (address + place) =
      0xffffffff := by
  apply readWord_of_readAt
  apply ext_getElem
  · rw [length_readAt, length_wordBytes]
  intro index bound _
  rw [length_readAt] at bound
  have blank : (wordBytes 0xffffffff)[index] = 0xff := by
    have all : wordBytes 0xffffffff = replicate 4 0xff := rfl
    simp only [all, getElem_replicate]
  rw [blank]
  simp only [readAt, getElem_map, getElem_range]
  rw [writeAt_of_ge _ (by omega), eraseRange, if_pos (by omega)]

theorem programmed_lastChunk {file : List UInt8} (covered : file.length ≤ extent)
    (aligned : extent % 4 = 0) :
    programmed (writeAt (eraseRange before address extent) address
        (file.take (packageSize * lastChunk file)))
        (address + packageSize * lastChunk file) (chunk file (lastChunk file)) =
      writeAt (eraseRange before address extent) address (content file) := by
  have start_le : packageSize * lastChunk file ≤ 4 * (file.length / 4) := by
    rw [lastChunk]
    unfold packageSize
    omega
  have words : packageSize * lastChunk file % 4 = 0 := by
    unfold packageSize
    omega
  rw [chunk_lastChunk]
  generalize packageSize * lastChunk file = start at start_le words ⊢
  have count : 4 * ((file.drop start).length / 4) = 4 * (file.length / 4) - start := by
    rw [length_drop]
    omega
  have rest : (file.drop start).length % 4 = file.length % 4 := by
    rw [length_drop]
    omega
  have taken : (file.take start).length = start := by
    rw [length_take]
    omega
  have whole : (file.take (4 * (file.length / 4))).length = 4 * (file.length / 4) := by
    rw [length_take]
    omega
  have flash : writeAt (writeAt (eraseRange before address extent) address (file.take start))
      (address + start) ((file.drop start).take (4 * (file.length / 4) - start)) =
      writeAt (eraseRange before address extent) address (file.take (4 * (file.length / 4))) := by
    rw [← Nat.add_sub_cancel' start_le, take_add, writeAt_append, taken, Nat.add_sub_cancel_left]
  rw [programmed, content, count, rest, flash, drop_drop, add_assoc,
    Nat.add_sub_cancel' start_le]
  split
  · rw [append_nil]
  next some =>
    rw [readWord_erased before (Nat.le_of_eq whole) (by omega), writeAt_append, whole]

theorem length_content : (content file).length = 4 * wordsOf file.length := by
  rw [content, wordsOf]
  split
  · rw [append_nil, length_take]
    omega
  · rw [length_append, length_take, length_wordBytes]
    omega

/-- What is written is the file exactly if the bytes at its end are right. -/
theorem content_iff :
    content file = file ++ replicate ((content file).length - file.length) 0xff ↔
      TailRight (file.drop (4 * (file.length / 4))) := by
  have parts := take_append_drop (4 * (file.length / 4)) file
  by_cases whole : file.length % 4 = 0
  · have all : 4 * (file.length / 4) = file.length := by omega
    have same : content file = file := by
      rw [content, if_pos whole, append_nil, all, take_length]
    rw [same, Nat.sub_self, replicate_zero, append_nil, all, drop_length]
    exact iff_of_true rfl (.inl rfl)
  have length : (file.drop (4 * (file.length / 4))).length = file.length % 4 := by
    rw [length_drop]
    omega
  have missing : (content file).length - file.length =
      4 - (file.drop (4 * (file.length / 4))).length := by
    rw [length_content, length, wordsOf]
    omega
  rw [← wordBytes_tailWord_iff _ (by omega), missing]
  · conv_lhs =>
      rhs
      lhs
      rw [← parts]
    rw [content, if_neg whole, append_assoc, append_cancel_left_eq]
  · intro none
    rw [none] at length
    exact whole length.symm

/-! ## The update -/

def idleLink (device : BootDevice) : Link := ⟨[], startCom device, device.sent.length, []⟩

theorem settled_idleLink (device : BootDevice) : Settled (idleLink device) device :=
  ⟨rfl, comRb_used, rfl, rfl, rfl⟩

def fileRequests (file : List UInt8) : List UInt8 :=
  bootloaderPackageData cmdErase (wordBytes (UInt32.ofNat file.length)) ++
    (range (lastChunk file + 1)).flatMap (chunkRequest file)

/-- An update that succeeds has erased at least the place of the file, has sent every chunk of the
file at its offset, and has left the flash updated exactly if the bytes at the end of the file are
right. What the host sends behind the last request must not look like a package. -/
theorem update_writes_file_iff {board : Board} {device : BootDevice} {file : List UInt8}
    (nonempty : 0 < file.length) (fits : file.length ≤ board.appSize.toNat)
    {events : List LinkEvent} {exchanges : List Exchange} {after : Link}
    (harmless : ∀ exchange, exchanges[lastChunk file]? = some exchange →
      ¬[0xa5, 0x5a] <:+: garbage exchange (chunk file (lastChunk file)).length)
    (done : update board (idleLink device) file events exchanges = some after) :
    (∃ rest, after.written = fileRequests file ++ rest) ∧
      ∃ erased extent,
        eraseFlash board (idleLink device) (UInt32.ofNat file.length) events = some erased ∧
        file.length ≤ extent ∧ erased.com.device.flash =
          eraseRange device.flash board.appStartAddress.toNat extent ∧
        (Updated board device.flash erased.com.device.flash after.com.device.flash file ↔
          TailRight (file.drop (4 * (file.length / 4)))) := by
  have app := board.toNat_appSize
  have flashSize := Board.flashSize_cases board.mach
  have size : (UInt32.ofNat file.length).toNat = file.length := by
    rw [UInt32.toNat_ofNat']
    omega
  have small : UInt32.ofNat file.length ≤ board.appSize := by
    rw [UInt32.le_iff_toNat_le, size]
    exact fits
  rw [update] at done
  split at done
  · cases done
  next next erased =>
    rcases eraseFlash_spec (settled_idleLink device) small erased with
      ⟨extent, reached, aligned, flash, written, settled⟩
    rw [size] at reached
    have isFlash : next.com.device.flash = writeAt
        (eraseRange device.flash board.appStartAddress.toNat extent)
        board.appStartAddress.toNat (file.take (packageSize * 0)) := by
      rw [flash, Nat.mul_zero, take_zero, writeAt_nil]
    have inBuffer : InBuffer file 0 0 := by
      refine ⟨rfl, le_rfl, ?_⟩
      unfold bufSize
      omega
    rcases programFile_spec fits settled isFlash inBuffer harmless done with
      ⟨⟨rest, isWritten⟩, final⟩
    refine ⟨⟨rest, ?_⟩, next, extent, erased, reached, flash, ?_⟩
    · rw [isWritten, written, fileRequests, range_eq_range', ← append_assoc]
      rfl
    have length := length_content file
    have words : file.length ≤ 4 * wordsOf file.length ∧ 4 * wordsOf file.length ≤ extent := by
      unfold wordsOf
      omega
    rw [final, flash, programmed_lastChunk device.flash reached aligned,
      updated_iff board device.flash (by omega) (by omega), content_iff]

def served (count : Nat) : List LinkEvent := [.deliver count, .task, .read 64]

def cleanExchange (count : Nat) : Exchange := ⟨served count, fun _ => 0⟩

/-- A file of one word comes out right. -/
theorem update_of_one_word :
    ∃ after erased, update smallBoard (idleLink blankDevice) [1, 2, 3, 4] (served 11)
        [cleanExchange 23] = some after ∧
      eraseFlash smallBoard (idleLink blankDevice) 4 (served 11) = some erased ∧
      Updated smallBoard blankDevice.flash erased.com.device.flash after.com.device.flash
        [1, 2, 3, 4] := by
  have defined : ((update smallBoard (idleLink blankDevice) [1, 2, 3, 4] (served 11)
      [cleanExchange 23]).map (·.read)) = some 26 := by
    decide +kernel
  rcases Option.map_eq_some_iff.mp defined with ⟨after, done, -⟩
  have harmless : ∀ exchange, [cleanExchange 23][lastChunk [1, 2, 3, 4]]? = some exchange →
      ¬[0xa5, 0x5a] <:+: garbage exchange (chunk [1, 2, 3, 4] (lastChunk [1, 2, 3, 4])).length := by
    intro exchange isExchange pair
    cases isExchange
    have isMember := pair.subset mem_cons_self
    rw [garbage, readAt] at isMember
    rcases mem_map.mp isMember with ⟨_, -, impossible⟩
    cases impossible
  rcases update_writes_file_iff (by decide) (by decide) harmless done with
    ⟨-, erased, _, isErased, -, -, updated⟩
  exact ⟨after, erased, done, isErased, updated.mpr (.inl rfl)⟩

def staleExchange : Exchange :=
  ⟨served 34, writeAt (fun _ => 0) 23 (bootloaderPackageData cmdErase (wordBytes 4))⟩

/-- A file of one byte does not come out right, and a request to erase on the stack erases the file,
though both updates succeed. -/
theorem update_succeeds_without_file :
    ((update smallBoard (idleLink blankDevice) [0x11] (served 11) [cleanExchange 20]).map
      fun link => readAt link.com.device.flash smallBoard.appStartAddress.toNat 4) =
        some [0x17, 0xf8, 0xff, 0xff] ∧
    ((update smallBoard (idleLink blankDevice) [1, 2, 3, 4] (served 11) [staleExchange]).map
      fun link => readAt link.com.device.flash smallBoard.appStartAddress.toNat 4) =
        some [0xff, 0xff, 0xff, 0xff] := by
  decide +kernel

end CentauriCarbon.Bootloader
