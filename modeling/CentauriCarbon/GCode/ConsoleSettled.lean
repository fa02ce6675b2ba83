import CentauriCarbon.Foundation.Lines
import CentauriCarbon.GCode.GCodeIo

/-! # The console between two calls

When no call of `process_data` is active the console is to be ready for the next one: nothing is
marked as being processed, the mutex is free of it, every complete line has been passed on, and a
read handler is registered. It is so as long as no exception leaves the call and never twenty
lines wait for the call that processes: what an error leaves locked stays locked, and a read
handler that was removed is not registered again.
-/

namespace CentauriCarbon.GCode

open List

namespace GCodeIo

def EndOfFileRead (console : GCodeIo) : Prop := console.isFileinput = true ∧ [] ∈ console.inputLog

structure Settled (console : GCodeIo) : Prop where
  notProcessing : console.isProcessingData = false
  mutexReleased : console.gcodeMutex.owner ≠ some .console
  linesPassed : console.passed.filterMap ConsoleCommand.line? =
    terminatedLines '\n' console.inputLog.flatten
  listening : console.fdHandle = true ∨ console.EndOfFileRead

/-- A `MMUError` leaves `process_commands`, and so does an exception of the shutdown. -/
def handlerEscapes (console : GCodeIo) : HandlerOutcome → Bool
  | .mmuError => true
  | .otherException throws => throws && !console.inShutdownState
  | _ => false

/-- A read while lines are processed leaves fewer than twenty lines pending, unless the end of
the file is read. A read otherwise contains no `M112` that is looked for before the lines are
processed and throws. What a handler throws is caught. -/
def Keeps (console : GCodeIo) : ConsoleEvent → Prop
  | .read data throws =>
    let completed := terminatedLines '\n' (console.partialInput ++ data)
    if console.isProcessingData then
      console.pendingCommands.length + completed.length < 20 ∨
        (console.isFileinput = true ∧ [] ∈ console.inputLog ++ [data])
    else
      ¬ (throws = true ∧ console.inShutdownState = false ∧
        (1 < completed.length ∧ completed.length < 20) ∧ ∃ line ∈ completed, isM112 line = true)
  | .handlerEnds outcome => console.handlerEscapes outcome = false
  | _ => True

instance decidableKeeps (console : GCodeIo) : ∀ event, Decidable (console.Keeps event)
  | .read _ _ => inferInstanceAs (Decidable (@ite Prop _ _ _ _))
  | .handlerEnds _ => inferInstanceAs (Decidable (_ = _))
  | .readError | .resumeLock | .other _ _ => .isTrue trivial

end GCodeIo

structure Received (inputLog : List (List Char)) (commands : List ConsoleCommand)
    (rest : List Char) : Prop where
  text_eq : inputLog.flatten = joined '\n' (commands.filterMap ConsoleCommand.line?) ++ rest
  separated : ∀ line ∈ commands.filterMap ConsoleCommand.line?, '\n' ∉ line
  restFree : '\n' ∉ rest

variable {inputLog : List (List Char)}

theorem Received.terminatedLines_eq (received : Received inputLog commands rest) :
    terminatedLines '\n' inputLog.flatten = commands.filterMap ConsoleCommand.line? := by
  rw [received.text_eq]
  exact terminatedLines_joined received.separated received.restFree

theorem filterMap_line (lines : List (List Char)) :
    (lines.map ConsoleCommand.line).filterMap ConsoleCommand.line? = lines := by
  rw [filterMap_map]
  exact filterMap_some

theorem takeLines_fst (free : '\n' ∉ partialInput) (data : List Char) :
    (GCodeIo.takeLines partialInput data).1 = terminatedLines '\n' (partialInput ++ data) := by
  rw [terminatedLines, splitOn_append_of_not_mem free]
  rfl

theorem Received.read (received : Received inputLog commands rest) (data : List Char)
    (noLine : others.filterMap ConsoleCommand.line? = []) : Received (inputLog ++ [data])
      (commands ++ ((GCodeIo.takeLines rest data).1.map .line ++ others))
      (GCodeIo.takeLines rest data).2 := by
  rcases exists_pieces received.restFree data with
    ⟨lines, later, pieces, text_eq, separated, laterFree⟩
  have taken : GCodeIo.takeLines rest data = (lines, later) := by
    rw [GCodeIo.takeLines, pieces]
    simp
  have commands_eq :
      (commands ++ (lines.map ConsoleCommand.line ++ others)).filterMap ConsoleCommand.line? =
        commands.filterMap ConsoleCommand.line? ++ lines := by
    rw [filterMap_append, filterMap_append, filterMap_line, noLine, append_nil]
  rw [taken]
  refine ⟨?_, ?_, laterFree⟩
  · rw [commands_eq, joined_append, append_assoc, ← text_eq, ← append_assoc,
      ← received.text_eq, flatten_append, flatten_singleton]
  · intro line member
    rw [commands_eq, mem_append] at member
    exact member.elim (received.separated line) (separated line)

/-! ## A call of `process_data` -/

namespace GCodeIo

variable {console : GCodeIo}

def added (console : GCodeIo) (data : List Char) : List ConsoleCommand :=
  (takeLines console.partialInput data).1.map .line ++
    if data.isEmpty && console.isFileinput then [.endOfFile] else []

/-- The read handler stays unless the end of a file is read while nothing is processed. -/
theorem receive_eq (console : GCodeIo) (data : List Char) :
    ∃ exitRequested, console.receive data = { console with
      inputLog := console.inputLog ++ [data]
      partialInput := (takeLines console.partialInput data).2
      pendingCommands := console.pendingCommands ++ console.added data
      fdHandle := console.fdHandle &&
        !(data.isEmpty && console.isFileinput && !console.isProcessingData)
      exitRequested } := by
  rw [receive, added]
  dsimp only
  by_cases atEnd : (data.isEmpty && console.isFileinput)
  · rw [if_pos atEnd, if_pos atEnd, atEnd, endOfFile]
    cases processing : console.isProcessingData with
    | false => exact ⟨true, by simp⟩
    | true => exact ⟨console.exitRequested, by simp⟩
  · rw [if_neg atEnd, if_neg atEnd, Bool.eq_false_iff.mpr atEnd]
    exact ⟨console.exitRequested, by simp⟩

theorem checkM112_eq (throws : Bool) (lines : List (List Char)) (console : GCodeIo) :
    checkM112 throws lines console =
      if lines.any isM112 && !console.inShutdownState then
        ({ console with
          inShutdownState := true
          exitRequested := console.exitRequested || console.isFileinput }, throws)
      else (console, false) := by
  induction lines generalizing console with
  | nil => rfl
  | cons line lines induction =>
    rw [checkM112, any_cons]
    cases isM112 line with
    | false => exact induction console
    | true =>
      cases down : console.inShutdownState with
      | true => simp [cmdM112, invokeShutdown, induction, down]
      | false => cases throws <;> simp [cmdM112, invokeShutdown, induction, down]

theorem checkPending_spec (console : GCodeIo) (throws : Bool) (lines : List (List Char)) :
    (∃ inShutdownState exitRequested, (console.checkPending throws lines).1 =
      { console with inShutdownState, exitRequested }) ∧
    ((console.checkPending throws lines).2 ↔
      throws = true ∧ console.inShutdownState = false ∧ console.pendingCommands.length < 20 ∧
        lines.any isM112 = true) := by
  rw [checkPending]
  by_cases few : console.pendingCommands.length < 20
  · rw [if_pos few, checkM112_eq]
    by_cases found : (lines.any isM112 && !console.inShutdownState)
    · rw [if_pos found]
      rw [Bool.and_eq_true, Bool.not_eq_true'] at found
      exact ⟨⟨true, _, rfl⟩, by simp [found.1, found.2, few]⟩
    rw [if_neg found]
    refine ⟨⟨console.inShutdownState, console.exitRequested, rfl⟩, ⟨nofun, ?_⟩⟩
    rintro ⟨-, up, -, isFound⟩
    rw [isFound, up] at found
    exact absurd rfl found
  · rw [if_neg few]
    exact ⟨⟨console.inShutdownState, console.exitRequested, rfl⟩, by simp [few]⟩

theorem holdBack_eq (console : GCodeIo) : console.holdBack = { console with
      fdHandle := console.fdHandle && decide (console.pendingCommands.length < 20) } := by
  rw [holdBack]
  by_cases few : console.pendingCommands.length < 20
  · rw [if_neg (Nat.not_le.mpr few), decide_eq_true few, Bool.and_true]
  · rw [if_pos (Nat.not_lt.mp few), decide_eq_false few, Bool.and_false]

def afterRead (console : GCodeIo) (data : List Char)
    (fdHandle inShutdownState exitRequested : Bool) : GCodeIo :=
  { console with
    inputLog := console.inputLog ++ [data]
    partialInput := (takeLines console.partialInput data).2
    pendingCommands := console.pendingCommands ++ console.added data
    fdHandle
    inShutdownState
    exitRequested }

theorem processData_of_processing (processing : console.isProcessingData) (data : List Char)
    (throws : Bool) : ∃ inShutdownState exitRequested, console.processData data throws =
      console.afterRead data
        (console.fdHandle && decide ((console.pendingCommands ++ console.added data).length < 20))
        inShutdownState exitRequested := by
  rcases receive_eq console data with ⟨exitRequested, received⟩
  rcases (console.receive data).checkPending_spec throws (takeLines console.partialInput data).1
    with ⟨⟨inShutdownState, exitAfter, checked⟩, thrown_iff⟩
  refine ⟨inShutdownState, exitAfter, ?_⟩
  rw [processData]
  dsimp only
  rw [if_pos (by simp [received, processing]), checked]
  split
  next thrown =>
    have few := (thrown_iff.mp thrown).2.2.1
    rw [received] at few
    rw [received, afterRead, decide_eq_true few, processing]
    simp
  · rw [received, holdBack_eq, afterRead, processing]
    simp

/-- An `M112` that is found before the lines are processed throws. -/
def Escapes (console : GCodeIo) (data : List Char) (throws : Bool) : Prop :=
  throws = true ∧ console.inShutdownState = false ∧
    (1 < (console.pendingCommands ++ console.added data).length ∧
      (console.pendingCommands ++ console.added data).length < 20) ∧
    (takeLines console.partialInput data).1.any isM112 = true

theorem processData_of_not_processing (notProcessing : console.isProcessingData = false)
    (data : List Char) (throws : Bool) : ∃ inShutdownState exitRequested,
      let read := console.afterRead data
        (console.fdHandle && !(data.isEmpty && console.isFileinput)) inShutdownState exitRequested
      (console.Escapes data throws ∧ console.processData data throws = read) ∨
      (¬ console.Escapes data throws ∧ console.processData data throws = read.startProcessing) := by
  rcases receive_eq console data with ⟨exitRequested, received⟩
  rcases (console.receive data).checkPending_spec throws (takeLines console.partialInput data).1
    with ⟨⟨inShutdownState, exitAfter, checked⟩, thrown_iff⟩
  rw [notProcessing, Bool.not_false, Bool.and_true] at received
  rw [processData]
  dsimp only
  by_cases many : 1 < (console.pendingCommands ++ console.added data).length
  · refine ⟨inShutdownState, exitAfter, ?_⟩
    rw [if_pos (by simpa [received] using many), checked]
    rw [received] at thrown_iff ⊢
    split
    next thrown =>
      rcases thrown_iff.mp thrown with ⟨throws_eq, up, few, found⟩
      exact .inl ⟨⟨throws_eq, up, ⟨many, few⟩, found⟩, by rw [afterRead, notProcessing]⟩
    next notThrown =>
      refine .inr ⟨fun ⟨throws_eq, up, sizes, found⟩ => ?_, ?_⟩
      · exact notThrown (thrown_iff.mpr ⟨throws_eq, up, sizes.2, found⟩)
      · rw [if_neg (by simp), afterRead, notProcessing]
  · refine ⟨console.inShutdownState, exitRequested, .inr ⟨fun escapes => ?_, ?_⟩⟩
    · exact many escapes.2.2.1.1
    · rw [received, if_neg (by simpa using many), afterRead, notProcessing]

end GCodeIo

/-! ## The invariant -/

def ConsoleCall.taken : ConsoleCall → List ConsoleCommand
  | .waiting pdCmds => pdCmds
  | _ => []

def ConsoleCall.isProcessing : ConsoleCall → Bool
  | .processing _ => true
  | _ => false

namespace GCodeIo

variable {console next : GCodeIo} {data : List Char}

structure Sound (console : GCodeIo) : Prop where
  reactorSet : console.reactor = true
  processing_iff : console.isProcessingData = true ↔ console.call ≠ .idle
  owner_iff : console.gcodeMutex.owner = some .console ↔ console.call.isProcessing = true
  nothingPending : console.call = .idle → console.pendingCommands = []
  received : Received console.inputLog
    (console.passed ++ (console.call.taken ++ console.pendingCommands)) console.partialInput
  listening : console.fdHandle = true ∨ console.EndOfFileRead

theorem respondError_eq (console : GCodeIo) :
    ∃ exitRequested, console.respondError = { console with exitRequested } := by
  rw [respondError]
  split
  · exact ⟨true, rfl⟩
  · exact ⟨console.exitRequested, rfl⟩

theorem handlerEnds_eq (console : GCodeIo) (commands : List ConsoleCommand)
    (outcome : HandlerOutcome) : ∃ inShutdownState exitRequested,
      console.handlerEnds commands outcome =
        if console.handlerEscapes outcome then
          { console with inShutdownState, exitRequested, call := .idle }
        else { console with inShutdownState, exitRequested }.nextCommand commands := by
  cases outcome with
  | returned => exact ⟨console.inShutdownState, console.exitRequested, rfl⟩
  | commandError =>
    rcases respondError_eq console with ⟨exitRequested, responded⟩
    exact ⟨console.inShutdownState, exitRequested, by rw [handlerEnds, responded]; rfl⟩
  | mmuError => exact ⟨console.inShutdownState, console.exitRequested, rfl⟩
  | otherException throws =>
    rcases respondError_eq (console.invokeShutdown throws).1 with ⟨exitRequested, responded⟩
    rw [handlerEnds]
    dsimp only
    rw [responded]
    cases down : console.inShutdownState with
    | true => exact ⟨true, exitRequested, by simp [invokeShutdown, handlerEscapes, down]⟩
    | false =>
      cases throws with
      | true =>
        refine ⟨true, console.exitRequested || console.isFileinput, ?_⟩
        simp [invokeShutdown, handlerEscapes, down]
      | false => exact ⟨true, exitRequested, by simp [invokeShutdown, handlerEscapes, down]⟩

structure AtLoopHead (console : GCodeIo) : Prop where
  reactorSet : console.reactor = true
  processing : console.isProcessingData = true
  notOwner : console.gcodeMutex.owner ≠ some .console
  received : Received console.inputLog (console.passed ++ console.pendingCommands)
    console.partialInput
  listening : console.fdHandle = true ∨ console.EndOfFileRead

theorem AtLoopHead.processPending (atHead : AtLoopHead console) : Sound console.processPending := by
  rw [GCodeIo.processPending]
  by_cases nothing : console.pendingCommands = []
  · rw [if_pos nothing]
    refine ⟨atHead.reactorSet, ?_, ?_, fun _ => nothing, atHead.received, ?_⟩
    · simp
    · simp [atHead.notOwner, ConsoleCall.isProcessing]
    · exact atHead.listening.imp (fun registered => by simp [registered]) id
  rw [if_neg nothing]
  dsimp only
  rcases console.gcodeMutex.lock_cases .console with ⟨taken, -, owner⟩ | ⟨waits, owner⟩
  · rw [if_pos taken]
    refine ⟨atHead.reactorSet, ?_, ?_, ?_, ?_, atHead.listening⟩
    · simp [processCommands, atHead.processing]
    · simp [processCommands, owner, ConsoleCall.isProcessing]
    · simp [processCommands]
    · simpa [processCommands, ConsoleCall.taken] using atHead.received
  rw [if_neg (by simp [waits])]
  refine ⟨atHead.reactorSet, ?_, ?_, ?_, ?_, atHead.listening⟩
  · simp [atHead.processing]
  · simp [owner, atHead.notOwner, ConsoleCall.isProcessing]
  · simp
  · simpa [ConsoleCall.taken] using atHead.received

theorem filterMap_atEnd (atEnd : Bool) :
    (if atEnd then [ConsoleCommand.endOfFile] else []).filterMap ConsoleCommand.line? = [] := by
  cases atEnd <;> rfl

theorem notAtEnd_of_not_endOfFile
    (notEnd : ¬ (console.isFileinput ∧ [] ∈ console.inputLog ++ [data])) :
    (data.isEmpty && console.isFileinput) = false := by
  rw [← Bool.not_eq_true, Bool.and_eq_true, List.isEmpty_iff]
  rintro ⟨rfl, isFile⟩
  exact notEnd ⟨isFile, by simp⟩

inductive Steps (console : GCodeIo) : ConsoleEvent → GCodeIo → Prop
  | read {data : List Char} {throws : Bool} (registered : console.fdHandle = true) :
      Steps console (.read data throws) (console.processData data throws)
  | readError (registered : console.fdHandle = true) : Steps console .readError console
  | handlerEnds {command : ConsoleCommand} {commands : List ConsoleCommand}
      {outcome : HandlerOutcome} (running : console.call = .processing (command :: commands)) :
      Steps console (.handlerEnds outcome) (console.handlerEnds commands outcome)
  | resumeLock {pdCmds : List ConsoleCommand} (waits : console.call = .waiting pdCmds) :
      Steps console .resumeLock (console.resumeLock pdCmds)
  | other {greenlet : ℕ} {action : MutexAction}
      {gcodeMutex : Reactor.ReactorMutex LockCaller}
      (used : otherUses console.gcodeMutex greenlet action = some gcodeMutex) :
      Steps console (.other greenlet action) { console with gcodeMutex }

theorem steps_of_step (stepped : console.step event = some next) : Steps console event next := by
  cases event with
  | read data throws =>
    rw [GCodeIo.step, Option.ite_none_right_eq_some, Option.some.injEq] at stepped
    exact stepped.2 ▸ .read stepped.1
  | readError =>
    rw [GCodeIo.step, Option.ite_none_right_eq_some, Option.some.injEq] at stepped
    exact stepped.2 ▸ .readError stepped.1
  | handlerEnds outcome =>
    rw [GCodeIo.step] at stepped
    split at stepped
    next running =>
      cases stepped
      exact .handlerEnds running
    · cases stepped
  | resumeLock =>
    rw [GCodeIo.step] at stepped
    split at stepped
    next waits =>
      cases stepped
      exact .resumeLock waits
    · cases stepped
  | other greenlet action =>
    rcases Option.map_eq_some_iff.mp stepped with ⟨gcodeMutex, used, rfl⟩
    exact .other used

theorem otherUses_owner (uses : otherUses mutex greenlet action = some used) :
    used.owner = some .console ↔ mutex.owner = some .console := by
  cases action with
  | lock =>
    rw [otherUses, Option.ite_none_left_eq_some, Option.some.injEq] at uses
    rw [← uses.2]
    rcases mutex.lock_cases (.other greenlet) with ⟨-, free, owner⟩ | ⟨-, owner⟩
    · simp [free, owner]
    · rw [owner]
  | resume =>
    rw [otherUses, Option.ite_none_right_eq_some, Option.some.injEq] at uses
    rw [← uses.2]
    rcases mutex.resume_cases (.other greenlet) with ⟨-, free, owner⟩ | ⟨-, owner⟩
    · simp [free, owner]
    · rw [owner]
  | unlock =>
    rw [otherUses, Option.ite_none_right_eq_some, Option.some.injEq] at uses
    rw [← uses.2]
    simp [uses.1]

structure Deaf (console : GCodeIo) : Prop where
  reactorSet : console.reactor = true
  unregistered : console.fdHandle = false
  notEnded : ¬ console.EndOfFileRead

section

variable (deaf : Deaf console)
include deaf

theorem Deaf.processPending : Deaf console.processPending := by
  rw [GCodeIo.processPending]
  split
  · refine ⟨deaf.reactorSet, ?_, deaf.notEnded⟩
    simp [deaf.reactorSet, deaf.unregistered]
  · dsimp only
    split <;> exact { deaf with }

theorem Deaf.nextCommand (commands : List ConsoleCommand) :
    Deaf (console.nextCommand commands) := by
  rw [GCodeIo.nextCommand]
  split
  · exact Deaf.processPending { deaf with }
  · exact { deaf with }

theorem Deaf.setPrinter (inShutdownState exitRequested : Bool) :
    Deaf { console with inShutdownState, exitRequested } :=
  { deaf with }

theorem Deaf.handlerEnds (commands : List ConsoleCommand) (outcome : HandlerOutcome) :
    Deaf (console.handlerEnds commands outcome) := by
  rcases handlerEnds_eq console commands outcome with ⟨inShutdownState, exitRequested, ended⟩
  rw [ended]
  split
  · exact { deaf with }
  · exact (deaf.setPrinter inShutdownState exitRequested).nextCommand commands

theorem Deaf.resumeLock (pdCmds : List ConsoleCommand) : Deaf (console.resumeLock pdCmds) := by
  rw [GCodeIo.resumeLock]
  dsimp only
  split
  · exact { deaf with }
  · exact deaf

end

theorem Deaf.step (console : GCodeIo) (event : ConsoleEvent) (next : GCodeIo) (deaf : Deaf console)
    (stepped : console.step event = some next) : Deaf next := by
  cases steps_of_step stepped with
  | read registered | readError registered =>
    rw [deaf.unregistered] at registered
    cases registered
  | handlerEnds => exact deaf.handlerEnds _ _
  | resumeLock => exact deaf.resumeLock _
  | other => exact { deaf with }

section

variable (sound : Sound console)
include sound

theorem Sound.settled (idle : console.call = .idle) : Settled console where
  __ := sound
  notProcessing := by
    rw [← Bool.not_eq_true, sound.processing_iff]
    exact fun active => active idle
  mutexReleased := by
    rw [Ne, sound.owner_iff, idle]
    decide
  linesPassed := by
    have received := sound.received
    rw [idle, sound.nothingPending idle] at received
    rw [received.terminatedLines_eq]
    simp [ConsoleCall.taken]

theorem Sound.idle_of_not_processing
    (notProcessing : console.isProcessingData = false) : console.call = .idle := by
  by_contra active
  rw [sound.processing_iff.mpr active] at notProcessing
  cases notProcessing

theorem Sound.setPrinter (inShutdownState exitRequested : Bool) :
    Sound { console with inShutdownState, exitRequested } :=
  { sound with }

theorem Sound.nextCommand (running : console.call = .processing (command :: commands)) :
    Sound (console.nextCommand commands) := by
  have received := sound.received
  rw [running] at received
  have processing : console.isProcessingData := by
    rw [sound.processing_iff, running]
    simp
  rw [GCodeIo.nextCommand]
  split
  · refine AtLoopHead.processPending
      ⟨sound.reactorSet, processing, ?_, received, sound.listening⟩
    simp
  refine ⟨sound.reactorSet, ?_, ?_, ?_, received, sound.listening⟩
  · simp [processing]
  · change _ ↔ true
    rw [sound.owner_iff, running]
    rfl
  · simp

theorem Sound.handlerEnds (running : console.call = .processing (command :: commands))
    (caught : console.handlerEscapes outcome = false) :
    Sound (console.handlerEnds commands outcome) := by
  rcases handlerEnds_eq console commands outcome with ⟨inShutdownState, exitRequested, ended⟩
  rw [ended, if_neg (by simp [caught])]
  exact (sound.setPrinter inShutdownState exitRequested).nextCommand running

theorem Sound.resumeLock (waits : console.call = .waiting pdCmds) :
    Sound (console.resumeLock pdCmds) := by
  rw [GCodeIo.resumeLock]
  dsimp only
  rcases console.gcodeMutex.resume_cases .console with ⟨taken, -, owner⟩ | ⟨stillWaits, -⟩
  · rw [if_pos taken]
    have received := sound.received
    have processing : console.isProcessingData := by
      rw [sound.processing_iff, waits]
      simp
    rw [waits] at received
    refine ⟨sound.reactorSet, ?_, ?_, ?_, ?_, sound.listening⟩
    · simp [processCommands, processing]
    · simp [processCommands, owner, ConsoleCall.isProcessing]
    · simp [processCommands]
    · simpa [processCommands, ConsoleCall.taken] using received
  · rw [if_neg (by simp [stillWaits])]
    exact sound

theorem Sound.received_read (data : List Char) : Received (console.inputLog ++ [data])
      (console.passed ++ (console.call.taken ++ (console.pendingCommands ++ console.added data)))
      (takeLines console.partialInput data).2 := by
  have received := sound.received.read data (filterMap_atEnd (data.isEmpty && console.isFileinput))
  rw [append_assoc, append_assoc] at received
  exact received

/-- Other than at the end of a file, a read adds the lines that it completes. -/
theorem Sound.added_eq
    (notAtEnd : (data.isEmpty && console.isFileinput) = false) : console.added data =
      (terminatedLines '\n' (console.partialInput ++ data)).map ConsoleCommand.line := by
  rw [added, takeLines_fst sound.received.restFree, notAtEnd]
  exact append_nil _

theorem Sound.registered_of_not_endOfFile
    (notEnd : ¬ (console.isFileinput ∧ [] ∈ console.inputLog ++ [data])) :
    console.fdHandle :=
  sound.listening.resolve_right fun ended =>
    notEnd ⟨ended.1, mem_append_left _ ended.2⟩

/-- A read while lines are processed is kept if and only if the console still listens. -/
theorem Sound.keeps_read_iff_listening (processing : console.isProcessingData)
    (data : List Char) (throws : Bool) : console.Keeps (.read data throws) ↔
      (console.processData data throws).fdHandle ∨
        (console.processData data throws).EndOfFileRead := by
  rcases processData_of_processing processing data throws with
    ⟨inShutdownState, exitRequested, read⟩
  rw [read, Keeps]
  rw [if_pos processing]
  by_cases atEnd : console.isFileinput ∧ [] ∈ console.inputLog ++ [data]
  · exact iff_of_true (.inr atEnd) (.inr atEnd)
  have registered := sound.registered_of_not_endOfFile atEnd
  refine (or_iff_left atEnd).trans (Iff.trans ?_ (or_iff_left (by exact atEnd)).symm)
  rw [afterRead, registered, sound.added_eq (notAtEnd_of_not_endOfFile atEnd)]
  simp

/-- A read while nothing is processed is kept if and only if it does not end in an `M112`. -/
theorem Sound.keeps_read_iff_not_escapes
    (notProcessing : console.isProcessingData = false) (data : List Char) (throws : Bool) :
    console.Keeps (.read data throws) ↔ ¬ console.Escapes data throws := by
  have idle := sound.idle_of_not_processing notProcessing
  rw [Keeps, Escapes, sound.nothingPending idle, takeLines_fst sound.received.restFree]
  rw [if_neg (by simp [notProcessing]), nil_append]
  cases atEnd : data.isEmpty && console.isFileinput with
  | false => rw [sound.added_eq atEnd, length_map, any_eq_true]
  | true =>
    rw [Bool.and_eq_true, List.isEmpty_iff] at atEnd
    rw [atEnd.1, append_nil, terminatedLines, splitOn_eq_singleton sound.received.restFree]
    simp

theorem Sound.read (keeps : console.Keeps (.read data throws)) :
    Sound (console.processData data throws) := by
  cases processing : console.isProcessingData with
  | true =>
    have listening := (sound.keeps_read_iff_listening processing data throws).mp keeps
    rcases processData_of_processing processing data throws with
      ⟨inShutdownState, exitRequested, read⟩
    rw [read] at listening ⊢
    refine ⟨sound.reactorSet, sound.processing_iff, sound.owner_iff, fun idle => ?_,
      sound.received_read data, listening⟩
    exact absurd idle (sound.processing_iff.mp processing)
  | false =>
    have idle := sound.idle_of_not_processing processing
    have stays := (sound.keeps_read_iff_not_escapes processing data throws).mp keeps
    rcases processData_of_not_processing processing data throws with
      ⟨inShutdownState, exitRequested, ⟨escapes, -⟩ | ⟨-, read⟩⟩
    · exact absurd escapes stays
    rw [read]
    have received := sound.received_read data
    rw [idle] at received
    refine AtLoopHead.processPending ⟨sound.reactorSet, rfl, ?_, received, ?_⟩
    · change console.gcodeMutex.owner ≠ _
      rw [Ne, sound.owner_iff, idle]
      decide
    by_cases atEnd : console.isFileinput ∧ [] ∈ console.inputLog ++ [data]
    · exact .inr atEnd
    · refine .inl ?_
      rw [sound.registered_of_not_endOfFile atEnd, notAtEnd_of_not_endOfFile atEnd]
      rfl

theorem Sound.step (keeps : console.Keeps event) (stepped : console.step event = some next) :
    Sound next := by
  cases steps_of_step stepped with
  | read => exact sound.read keeps
  | readError => exact sound
  | handlerEnds running => exact sound.handlerEnds running keeps
  | resumeLock waits => exact sound.resumeLock waits
  | other used =>
    exact { sound with owner_iff := (otherUses_owner used).trans sound.owner_iff }

end

end GCodeIo

/-! ## Runs -/

end CentauriCarbon.GCode
