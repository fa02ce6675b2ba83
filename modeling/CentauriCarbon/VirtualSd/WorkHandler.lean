import CentauriCarbon.Foundation.EventRun
import CentauriCarbon.Foundation.Lines

/-! # Printing from the virtual SD card

`work_handler` is a coroutine. It reads the file in chunks, cuts them into lines and hands
these to the G-code dispatcher. Others run while it yields: after it has read a chunk, while
it waits for the G-code mutex, and during a line.
-/

namespace CentauriCarbon.VirtualSd

/-- `std::ifstream`; reading itself never fails. -/
structure InputStream where
  content : List UInt8
  isOpen : Bool
  position : ℕ
  eofbit : Bool
  failbit : Bool

namespace InputStream

def opened (content : List UInt8) : InputStream := ⟨content, true, 0, false, false⟩

def empty : InputStream := ⟨[], false, 0, false, false⟩

variable (stream : InputStream)

def ok : Bool := !stream.failbit

/-- `seekg` clears only `eofbit`, and fails while `failbit` is set. -/
def seekg (position : ℕ) : InputStream :=
  if stream.failbit then { stream with eofbit := false }
  else if stream.isOpen then { stream with eofbit := false, position }
  else { stream with eofbit := false, failbit := true }

def read (count : ℕ) : InputStream × List UInt8 :=
  if stream.eofbit || stream.failbit then ({ stream with failbit := true }, [])
  else
    let data := if stream.isOpen then (stream.content.drop stream.position).take count else []
    let short := decide (data.length < count)
    ({ stream with
      position := stream.position + data.length, eofbit := short, failbit := short }, data)

def close : InputStream :=
  if stream.isOpen then { stream with isOpen := false } else { stream with failbit := true }

def clear : InputStream :=
  { stream with eofbit := false, failbit := false }

end InputStream

inductive PrintState where
  | standby
  | printing
  | paused
  | complete
  | error
  | cancelled
  deriving DecidableEq

structure PrintStats where
  state : PrintState
  started : Bool

namespace PrintStats

def noteStart (_ : PrintStats) : PrintStats := ⟨.printing, true⟩

variable (stats : PrintStats)

def notePause : PrintStats :=
  if stats.state ≠ .error then { stats with state := .paused } else stats

/-- `note_finish`, which is ignored when no print has been started. -/
def noteFinish (state : PrintState) : PrintStats :=
  if stats.started then ⟨state, false⟩ else stats

def noteComplete : PrintStats := stats.noteFinish .complete

def noteError : PrintStats := stats.noteFinish .error

def noteCancel : PrintStats := stats.noteFinish .cancelled

end PrintStats

abbrev Line := List UInt8

def newline : UInt8 := 10

def bufferSize : ℕ := 8192

structure Locals where
  partialInput : List UInt8
  lines : List Line
  deriving DecidableEq

inductive Handler where
  /-- It does not run. -/
  | idle
  /-- Its timer is registered. -/
  | scheduled
  /-- It is at the head of its loop. -/
  | head (locals : Locals)
  /-- It is at the head of its loop too, but others run before it goes on. -/
  | yielding (locals : Locals)
  /-- It runs a line; the position behind the line is its local `next_file_position`. -/
  | inLine (locals : Locals) (line : Line) (nextFilePosition : ℕ)
  deriving DecidableEq

/-- `VirtualSD` and the loop stack of `SDCardLoop`, with the lines that were handed to
`run_script`. -/
structure VirtualSD where
  handler : Handler
  currentFile : InputStream
  filePosition : ℕ
  nextFilePosition : ℕ
  mustPauseWork : Bool
  cmdFromSd : Bool
  workTimer : Bool
  printStats : PrintStats
  loopStack : List (ℕ × ℕ)
  executed : List Line

inductive FileCommand where
  | other
  | loopBegin (count : ℕ)
  | loopEnd
  deriving DecidableEq

inductive LineOutcome where
  | done (command : FileCommand)
  /-- A `CommandError`. -/
  | commandError
  | otherException
  deriving DecidableEq

namespace VirtualSD

def loadFile (content : List UInt8) : VirtualSD where
  handler := .idle
  currentFile := .opened content
  filePosition := 0
  nextFilePosition := 0
  mustPauseWork := false
  cmdFromSd := false
  workTimer := false
  printStats := ⟨.standby, false⟩
  loopStack := []
  executed := []

variable (sd : VirtualSD) (locals : Locals)

/-- `do_resume`, which throws "SD busy" while the handler is at work. -/
def doResume : Except String VirtualSD :=
  if sd.workTimer then .error "SD busy"
  else
    .ok { sd with mustPauseWork := false, workTimer := true, handler := .scheduled }

def giveUp : VirtualSD :=
  { sd with workTimer := false, handler := .idle }

def startWork : VirtualSD :=
  let sd := { sd with currentFile := sd.currentFile.seekg sd.filePosition }
  if !sd.currentFile.ok then sd.giveUp
  else { sd with printStats := sd.printStats.noteStart, handler := .head ⟨[], []⟩ }

def exitWork (hasError : Bool) : VirtualSD :=
  let sd := { sd with workTimer := false, cmdFromSd := false, handler := .idle }
  if hasError then { sd with printStats := sd.printStats.noteError }
  else if sd.currentFile.isOpen then { sd with printStats := sd.printStats.notePause }
  else { sd with printStats := sd.printStats.noteComplete }

def takeLines (partialInput data : List UInt8) : Locals :=
  let pieces := (data.splitOn newline).modifyHead fun front => partialInput ++ front
  ⟨pieces.getLastD partialInput, pieces.dropLast⟩

def readChunk : VirtualSD :=
  let (currentFile, data) := sd.currentFile.read bufferSize
  if data.length = 0 then { sd with currentFile := .empty }.exitWork false
  else { sd with currentFile, handler := .yielding (takeLines locals.partialInput data) }

def runLine (partialInput : List UInt8) (line : Line) (lines : List Line) : VirtualSD :=
  let nextFilePosition := sd.filePosition + line.length + 1
  { sd with
    cmdFromSd := true
    nextFilePosition
    executed := sd.executed ++ [line]
    handler := .inLine ⟨partialInput, lines⟩ line nextFilePosition }

/-- One round of the loop, up to the next yield or the start of a line. -/
def loopRound (mutexBusy : Bool) : VirtualSD :=
  if sd.mustPauseWork then sd.exitWork false
  else
    match locals.lines with
    | [] => sd.readChunk locals
    | line :: lines =>
      if mutexBusy then { sd with handler := .yielding locals }
      else sd.runLine locals.partialInput line lines

def loopBegin (count : ℕ) : VirtualSD :=
  if !sd.cmdFromSd then sd
  else { sd with loopStack := sd.loopStack ++ [(count, sd.nextFilePosition)] }

/-- `loop_end`; the stack is looked at, but nothing is taken from it. -/
def loopEnd : VirtualSD :=
  if !sd.cmdFromSd then sd
  else
    match sd.loopStack.getLast? with
    | none => sd
    | some (count, position) =>
      if count = 0 then
        { sd with nextFilePosition := position, loopStack := sd.loopStack ++ [(0, position)] }
      else if count = 1 then sd
      else
        { sd with
          nextFilePosition := position
          loopStack := sd.loopStack ++ [(count - 1, position)] }

def command : FileCommand → VirtualSD
  | .other => sd
  | .loopBegin count => sd.loopBegin count
  | .loopEnd => sd.loopEnd

/-- The rest of the loop's body, after a line. The local `next_file_position` hides the one
that a loop has set. -/
def lineDone (nextFilePosition : ℕ) : VirtualSD :=
  let sd := { sd with cmdFromSd := false, filePosition := nextFilePosition }
  if sd.nextFilePosition ≠ nextFilePosition then
    let sd := { sd with currentFile := sd.currentFile.seekg sd.filePosition }
    if !sd.currentFile.ok then sd.giveUp else { sd with handler := .head ⟨[], []⟩ }
  else { sd with handler := .head locals }

def endLine (nextFilePosition : ℕ) : LineOutcome → VirtualSD
  | .done command => (sd.command command).lineDone locals nextFilePosition
  | .commandError => sd.exitWork true
  | .otherException => sd.exitWork false

def beginPause : VirtualSD :=
  if sd.workTimer then { sd with mustPauseWork := true } else sd

def keepsWaiting : Bool := sd.workTimer && sd.cmdFromSd

def endCancel : VirtualSD :=
  { sd with
    currentFile := sd.currentFile.close.clear
    printStats := sd.printStats.noteCancel
    filePosition := 0 }

def skipCancel : VirtualSD :=
  { sd with filePosition := 0 }

end VirtualSD

variable {sd : VirtualSD}

theorem startWork_frame :
    sd.startWork.loopStack = sd.loopStack ∧ sd.startWork.executed = sd.executed := by
  simp only [VirtualSD.startWork, VirtualSD.giveUp]
  split_ifs <;> exact ⟨rfl, rfl⟩

theorem exitWork_frame (hasError : Bool) : (sd.exitWork hasError).loopStack = sd.loopStack ∧
    (sd.exitWork hasError).executed = sd.executed ∧ (sd.exitWork hasError).handler = .idle := by
  simp only [VirtualSD.exitWork]
  split_ifs <;> exact ⟨rfl, rfl, rfl⟩

variable (locals : Locals) (nextFilePosition : ℕ)

theorem loopRound_loopStack (mutexBusy : Bool) :
    (sd.loopRound locals mutexBusy).loopStack = sd.loopStack := by
  rw [VirtualSD.loopRound]
  split
  · exact (exitWork_frame false).1
  split
  · simp only [VirtualSD.readChunk]
    split_ifs
    · exact (exitWork_frame false).1
    · rfl
  · split_ifs <;> rfl

theorem loopRound_executed (mutexBusy : Bool) :
    (sd.loopRound locals mutexBusy).executed = sd.executed ∨
      ∃ after line nextFilePosition,
        (sd.loopRound locals mutexBusy).executed = sd.executed ++ [line] ∧
        (sd.loopRound locals mutexBusy).handler = .inLine after line nextFilePosition := by
  rw [VirtualSD.loopRound]
  split
  · exact .inl (exitWork_frame false).2.1
  split
  · simp only [VirtualSD.readChunk]
    split_ifs
    · exact .inl (exitWork_frame false).2.1
    · exact .inl rfl
  · split_ifs
    · exact .inl rfl
    · exact .inr ⟨_, _, _, rfl, rfl⟩

/-- A command of the file changes only the next file position and the loop stack. -/
theorem command_eq (sd : VirtualSD) (command : FileCommand) :
    ∃ nextFilePosition loopStack, sd.command command = { sd with nextFilePosition, loopStack } := by
  cases command with
  | other => exact ⟨_, _, rfl⟩
  | loopBegin count =>
    rw [VirtualSD.command, VirtualSD.loopBegin]
    split_ifs <;> exact ⟨_, _, rfl⟩
  | loopEnd =>
    rw [VirtualSD.command, VirtualSD.loopEnd]
    split_ifs
    · exact ⟨_, _, rfl⟩
    cases sd.loopStack.getLast? with
    | none => exact ⟨_, _, rfl⟩
    | some top =>
      dsimp only
      split_ifs <;> exact ⟨_, _, rfl⟩

theorem lineDone_frame : (sd.lineDone locals nextFilePosition).loopStack = sd.loopStack ∧
    (sd.lineDone locals nextFilePosition).executed = sd.executed := by
  simp only [VirtualSD.lineDone, VirtualSD.giveUp]
  split_ifs <;> exact ⟨rfl, rfl⟩

end CentauriCarbon.VirtualSd
