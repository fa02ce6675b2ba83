import CentauriCarbon.Foundation.EventRun
import CentauriCarbon.Reactor.ReactorMutex

/-! # The G-code console

`process_data` is called when there is something to read. It cuts the input into lines and
processes them under the mutex of the dispatcher. A handler may pause, so that `process_data` is
called again while lines are processed; that call only leaves its lines to the one that processes,
and stops reading once twenty of them wait.
-/

namespace CentauriCarbon.GCode

open Reactor

/-- An element of `pending_commands`: a line that was read, or the empty text that stands for
the end of a file. -/
inductive ConsoleCommand where
  | line (text : List Char)
  | endOfFile
  deriving DecidableEq

def ConsoleCommand.line? : ConsoleCommand → Option (List Char)
  | .line text => some text
  | .endOfFile => none

def isSpace (character : Char) : Bool := character = ' ' || ('\t' ≤ character && character ≤ '\r')

def skipLineNumber : List Char → List Char
  | [] => []
  | letter :: text =>
    if (letter = 'n' || letter = 'N') && text.head?.any Char.isDigit then
      text.dropWhile Char.isDigit
    else letter :: text

/-- The whole line matches `^([nN][0-9]+)?\s*[mM]112(\s|$)`. -/
def isM112 (line : List Char) : Bool :=
  match (skipLineNumber line).dropWhile isSpace with
  | letter :: '1' :: '1' :: '2' :: rest =>
    (letter = 'm' || letter = 'M') && (rest.isEmpty || (rest.length = 1 && rest.all isSpace))
  | _ => false

example : isM112 "N12 m112\r".toList = true := by decide

example : isM112 "M112 now".toList = false := by decide

inductive LockCaller where
  | console
  | other (greenlet : ℕ)
  deriving DecidableEq

inductive ConsoleCall where
  /-- No call is active. -/
  | idle
  /-- In `gcode_mutex->lock()`, with the lines `pd_cmds`. -/
  | waiting (pdCmds : List ConsoleCommand)
  /-- In `process_commands`, in the handler of the first of the lines. -/
  | processing (commands : List ConsoleCommand)
  deriving DecidableEq

inductive HandlerOutcome where
  | returned
  | commandError
  | mmuError
  /-- The flag says whether a shutdown that this is the first cause of throws, too. -/
  | otherException (throws : Bool)
  deriving DecidableEq

structure GCodeIo where
  isFileinput : Bool
  isProcessingData : Bool
  partialInput : List Char
  pendingCommands : List ConsoleCommand
  /-- There is a handle, and with it a read handler for `fd`. -/
  fdHandle : Bool
  /-- The pointer to the reactor is set. -/
  reactor : Bool
  gcodeMutex : ReactorMutex LockCaller
  inputLog : List (List Char)
  call : ConsoleCall
  /-- The lines that `process_commands` was called with, in order. -/
  passed : List ConsoleCommand
  /-- `in_shutdown_state` of the printer. -/
  inShutdownState : Bool
  /-- The printer has been asked to exit. -/
  exitRequested : Bool

namespace GCodeIo

/-- The constructor; a file is not read before the printer is ready. -/
def create (isFileinput : Bool) : GCodeIo where
  isFileinput
  isProcessingData := false
  partialInput := []
  pendingCommands := []
  fdHandle := !isFileinput
  reactor := true
  gcodeMutex := .new
  inputLog := []
  call := .idle
  passed := []
  inShutdownState := false
  exitRequested := false

def handleReady (console : GCodeIo) : GCodeIo :=
  if console.isFileinput && !console.fdHandle then { console with fdHandle := true } else console

def start (isFileinput : Bool) : GCodeIo := (create isFileinput).handleReady

variable (console : GCodeIo)

def respondError : GCodeIo :=
  if console.isFileinput then { console with exitRequested := true } else console

def processCommands (pdCmds : List ConsoleCommand) : GCodeIo :=
  { console with passed := console.passed ++ pdCmds, call := .processing pdCmds }

/-- The loop of `process_data` at its head, where `pd_cmds` is what is pending, up to the call of
`process_commands` or to the first `pause` in `lock`; and the end of `process_data` behind it. -/
def processPending : GCodeIo :=
  if console.pendingCommands = [] then
    { console with
      isProcessingData := false
      fdHandle := if !console.fdHandle && !console.reactor then true else console.fdHandle
      call := .idle }
  else
    let (gcodeMutex, taken) := console.gcodeMutex.lock .console
    let locking := { console with gcodeMutex, pendingCommands := [] }
    if taken then locking.processCommands console.pendingCommands
    else { locking with call := .waiting console.pendingCommands }

def startProcessing : GCodeIo := { console with isProcessingData := true }.processPending

def resumeLock (pdCmds : List ConsoleCommand) : GCodeIo :=
  let (gcodeMutex, taken) := console.gcodeMutex.resume .console
  if taken then { console with gcodeMutex }.processCommands pdCmds else console

def nextCommand (commands : List ConsoleCommand) : GCodeIo :=
  if commands = [] then { console with gcodeMutex := console.gcodeMutex.unlock }.processPending
  else { console with call := .processing commands }

/-- `invoke_shutdown` of the printer. The first call may throw; the flag says that it has. -/
def invokeShutdown (throws : Bool) : GCodeIo × Bool :=
  if console.inShutdownState then (console, false)
  else ({ console with
    inShutdownState := true
    exitRequested := console.exitRequested || console.isFileinput }, throws)

/-- The handler of a line ends, with more lines behind it. A `MMUError` leaves
`process_commands` and with it `process_data`, and so does what the shutdown throws. -/
def handlerEnds (commands : List ConsoleCommand) : HandlerOutcome → GCodeIo
  | .returned => console.nextCommand commands
  | .commandError => console.respondError.nextCommand commands
  | .mmuError => { console with call := .idle }
  | .otherException throws =>
    let (console, thrown) := console.invokeShutdown throws
    if thrown then { console with call := .idle } else console.respondError.nextCommand commands

def cmdM112 (throws : Bool) : GCodeIo × Bool := console.invokeShutdown throws

def takeLines (partialInput data : List Char) : List (List Char) × List Char :=
  let pieces := (data.splitOn '\n').modifyHead fun front => partialInput ++ front
  (pieces.dropLast, pieces.getLastD partialInput)

def checkM112 (throws : Bool) : List (List Char) → GCodeIo → GCodeIo × Bool
  | [], console => (console, false)
  | line :: lines, console =>
    if isM112 line then
      let (console, thrown) := console.cmdM112 throws
      if thrown then (console, true) else checkM112 throws lines console
    else checkM112 throws lines console

variable (data : List Char) (throws : Bool)

def endOfFile : GCodeIo :=
  let console :=
    if !console.isProcessingData then { console with fdHandle := false, exitRequested := true }
    else console
  { console with pendingCommands := console.pendingCommands ++ [.endOfFile] }

def receive : GCodeIo :=
  let (lines, partialInput) := takeLines console.partialInput data
  let console := { console with
    inputLog := console.inputLog ++ [data]
    partialInput
    pendingCommands := console.pendingCommands ++ lines.map .line }
  if data.isEmpty && console.isFileinput then console.endOfFile else console

def checkPending (lines : List (List Char)) : GCodeIo × Bool :=
  if console.pendingCommands.length < 20 then checkM112 throws lines console
  else (console, false)

def holdBack : GCodeIo :=
  if 20 ≤ console.pendingCommands.length then { console with fdHandle := false } else console

def processData : GCodeIo :=
  let lines := (takeLines console.partialInput data).1
  let console := console.receive data
  if console.isProcessingData || 1 < console.pendingCommands.length then
    let (console, thrown) := console.checkPending throws lines
    if thrown then console
    else if console.isProcessingData then console.holdBack
    else console.startProcessing
  else console.startProcessing

end GCodeIo

inductive MutexAction where
  | lock
  | resume
  | unlock

inductive ConsoleEvent where
  /-- The read handler is called and reads the data, which is empty at the end of a file. The
  flag is what a shutdown by `M112` does. -/
  | read (data : List Char) (throws : Bool)
  /-- The read handler is called and cannot read. -/
  | readError
  | handlerEnds (outcome : HandlerOutcome)
  /-- The call that waits for the mutex runs again. -/
  | resumeLock
  | other (greenlet : ℕ) (action : MutexAction)

/-- A greenlet locks the mutex if it does not have it nor wait for it, resumes while it waits and
unlocks what it has locked. -/
def otherUses (mutex : ReactorMutex LockCaller) (greenlet : ℕ) :
    MutexAction → Option (ReactorMutex LockCaller)
  | .lock =>
    if mutex.owner = some (.other greenlet) ∨ .other greenlet ∈ mutex.queue then none
    else some (mutex.lock (.other greenlet)).1
  | .resume =>
    if .other greenlet ∈ mutex.queue then some (mutex.resume (.other greenlet)).1 else none
  | .unlock => if mutex.owner = some (.other greenlet) then some mutex.unlock else none

def GCodeIo.step (console : GCodeIo) : ConsoleEvent → Option GCodeIo
  | .read data throws => if console.fdHandle then some (console.processData data throws) else none
  | .readError => if console.fdHandle then some console else none
  | .handlerEnds outcome =>
    match console.call with
    | .processing (_ :: commands) => some (console.handlerEnds commands outcome)
    | _ => none
  | .resumeLock =>
    match console.call with
    | .waiting pdCmds => some (console.resumeLock pdCmds)
    | _ => none
  | .other greenlet action =>
    (otherUses console.gcodeMutex greenlet action).map fun gcodeMutex =>
      { console with gcodeMutex }

end CentauriCarbon.GCode
