import CentauriCarbon.VirtualSd.WorkHandler
import Mathlib.Logic.Function.Iterate

/-! # Printing a file, with pauses

A print is driven on: a paused print is resumed, a line that runs comes to its end. Requests
say what else happens: at every step of the handler a pause may be asked for, and the G-code
mutex may be busy. The print completes with every line of the file, once and in order,
exactly if no pause is asked for while the stream has failed, which it does when the last
chunk is read.
-/

namespace CentauriCarbon.VirtualSd

open List

structure Request where
  pause : Bool
  mutexBusy : Bool

/-- A print that is driven on, and the requests that are ahead. -/
abbrev Driven := VirtualSD × List Request

variable (content : List UInt8) (sd : VirtualSD) (commands : Line → FileCommand)

/-- The handler goes on to its next yield or to the start of a line; `commands` says what
the lines are. -/
def handlerStep (sd : VirtualSD) (mutexBusy : Bool) : VirtualSD :=
  match sd.handler with
  | .idle => sd
  | .scheduled => sd.startWork
  | .head locals | .yielding locals => sd.loopRound locals mutexBusy
  | .inLine locals line nextFilePosition =>
    sd.endLine locals nextFilePosition (.done (commands line))

def resumePaused : VirtualSD :=
  if sd.printStats.state = .paused then
    match sd.doResume with
    | .ok resumed => resumed
    | .error _ => sd
  else sd

def Driven.request (driven : Driven) : Request := driven.2.headD ⟨false, false⟩

def Driven.requested (driven : Driven) : VirtualSD :=
  if driven.request.pause then driven.1.beginPause else driven.1

def drive (driven : Driven) : Driven :=
  if driven.1.handler = .idle then (resumePaused driven.1, driven.2)
  else (handlerStep commands driven.requested driven.request.mutexBusy, driven.2.tail)

def startPrint : VirtualSD :=
  { VirtualSD.loadFile content with workTimer := true, handler := .scheduled }

/-- No pause is asked for while the stream has failed. -/
def PausesWell (driven : Driven) : Prop :=
  driven.1.handler ≠ .idle → driven.request.pause = true → driven.1.currentFile.failbit = false

def Completed : Prop :=
  sd.handler = .idle ∧ sd.printStats.state = .complete ∧
    sd.executed = terminatedLines newline content

def NoLoopBegins (content : List UInt8) : Prop :=
  ∀ line ∈ terminatedLines newline content, ∀ count, commands line ≠ .loopBegin count

structure Executed (content : List UInt8) (sd : VirtualSD) : Prop where
  separated : ∀ line ∈ sd.executed, newline ∉ line
  goesOn : ∃ rest, content = joined newline sd.executed ++ rest
  noLoop : sd.loopStack = []
  content_eq : sd.currentFile.content = content
  isOpen : sd.currentFile.isOpen = true

structure Resumable (content : List UInt8) (sd : VirtualSD) : Prop
    extends Executed content sd where
  position_eq : sd.filePosition = (joined newline sd.executed).length
  notFailed : sd.currentFile.failbit = false

structure Reading (content : List UInt8) (sd : VirtualSD) (locals : Locals) : Prop
    extends Executed content sd where
  content_split : content = joined newline sd.executed ++ (joined newline locals.lines ++
    (locals.partialInput ++ content.drop sd.currentFile.position))
  linesSeparated : ∀ line ∈ locals.lines, newline ∉ line
  partialSeparated : newline ∉ locals.partialInput
  inside : sd.currentFile.position ≤ content.length
  eof_eq : sd.currentFile.eofbit = sd.currentFile.failbit
  atEnd : sd.currentFile.failbit = true → sd.currentFile.position = content.length
  working : sd.workTimer = true
  pausesWell : sd.mustPauseWork = true → sd.currentFile.failbit = false
  isPrinting : sd.printStats = ⟨.printing, true⟩

structure AtHead (content : List UInt8) (sd : VirtualSD) (locals : Locals) : Prop
    extends Reading content sd locals where
  position_eq : sd.filePosition = (joined newline sd.executed).length
  atHead : sd.handler = .head locals ∨ sd.handler = .yielding locals

def Sound : Prop :=
  match sd.handler with
  | .idle =>
    Completed content sd ∧ sd.loopStack = [] ∨
    Resumable content sd ∧ sd.workTimer = false ∧ sd.printStats = ⟨.paused, true⟩
  | .scheduled => Resumable content sd ∧ sd.workTimer = true
  | .head locals | .yielding locals => Reading content sd locals ∧
      sd.filePosition = (joined newline sd.executed).length
  | .inLine locals line nextFilePosition => Reading content sd locals ∧
      line ∈ sd.executed ∧ sd.cmdFromSd = true ∧
      nextFilePosition = (joined newline sd.executed).length ∧
      sd.nextFilePosition = nextFilePosition ∧ sd.filePosition < nextFilePosition

def work : ℕ :=
  let toExecute := content.length - sd.filePosition
  let toRead := content.length - sd.currentFile.position
  match sd.handler with
  | .idle => if sd.printStats.state = .paused then 6 * toExecute + 3 else 0
  | .scheduled => 6 * toExecute + if sd.mustPauseWork then 5 else 2
  | .head _ | .yielding _ =>
    if sd.mustPauseWork then 6 * toExecute + 4 else 4 * toExecute + 2 * toRead + 1
  | .inLine _ _ _ =>
    if sd.mustPauseWork then 6 * toExecute else 4 * toExecute + 2 * toRead

def Advances (before after : VirtualSD) : Prop :=
  Sound content after ∧ work content after < work content before

variable {content : List UInt8} {sd : VirtualSD} {locals : Locals}

/-! ## Steps of the handler -/

theorem Executed.position_le (executed : Executed content sd) :
    (joined newline sd.executed).length ≤ content.length := by
  rcases executed.goesOn with ⟨rest, split⟩
  rw [split, length_append]
  exact Nat.le_add_right _ _

theorem Resumable.startWork (resumable : Resumable content sd) (working : sd.workTimer)
    (isScheduled : sd.handler = .scheduled) : Advances content sd sd.startWork := by
  rcases resumable.goesOn with ⟨rest, split⟩
  have sought : sd.currentFile.seekg sd.filePosition =
      { sd.currentFile with eofbit := false, position := sd.filePosition } := by
    rw [InputStream.seekg, if_neg (by simp [resumable.notFailed]), if_pos resumable.isOpen]
  have started : sd.startWork = { sd with
      currentFile := { sd.currentFile with eofbit := false, position := sd.filePosition }
      printStats := ⟨.printing, true⟩
      handler := .head ⟨[], []⟩ } := by
    rw [VirtualSD.startWork, sought]
    simp [InputStream.ok, resumable.notFailed, PrintStats.noteStart]
  have isRest : content.drop sd.filePosition = rest := by
    rw [resumable.position_eq, split, drop_left]
  have inside : sd.filePosition ≤ content.length := resumable.position_eq ▸ resumable.position_le
  rw [started]
  constructor
  · refine ⟨{ resumable.toExecuted with
      content_split := ?_
      linesSeparated := by simp
      partialSeparated := by simp
      inside
      eof_eq := resumable.notFailed.symm
      atEnd := fun failed => by simp [resumable.notFailed] at failed
      working
      pausesWell := fun _ => resumable.notFailed
      isPrinting := rfl }, resumable.position_eq⟩
    dsimp only
    rw [isRest]
    exact split
  · simp only [work, isScheduled]
    split <;> omega

theorem exitWork_of_open (isOpen : sd.currentFile.isOpen) (noError : sd.printStats.state ≠ .error) :
    sd.exitWork false = { sd with
      workTimer := false
      cmdFromSd := false
      handler := .idle
      printStats := { sd.printStats with state := .paused } } := by
  simp [VirtualSD.exitWork, isOpen, PrintStats.notePause, noError]

theorem Reading.noError (reading : Reading content sd locals) : sd.printStats.state ≠ .error := by
  rw [reading.isPrinting]
  decide

theorem AtHead.pause (head : AtHead content sd locals) (isPausing : sd.mustPauseWork) :
    Advances content sd (sd.exitWork false) := by
  rw [exitWork_of_open head.isOpen head.noError, head.isPrinting]
  constructor
  · have notFailed := head.pausesWell isPausing
    exact .inr ⟨{ head with notFailed }, rfl, rfl⟩
  · rcases head.atHead with isHead | isYielding
    · simp [work, isHead, isPausing]
    · simp [work, isYielding, isPausing]

theorem AtHead.work_eq (head : AtHead content sd locals) (notPausing : sd.mustPauseWork = false) :
    work content sd = 4 * (content.length - sd.filePosition) +
      2 * (content.length - sd.currentFile.position) + 1 := by
  rcases head.atHead with isHead | isYielding
  · simp [work, isHead, notPausing]
  · simp [work, isYielding, notPausing]

section

variable (reading : Reading content sd locals) (noLines : locals.lines = [])
include reading noLines

theorem Reading.complete (noMore : content.drop sd.currentFile.position = [])
    (some_work : 0 < work content sd) :
    Advances content sd ({ sd with currentFile := .empty }.exitWork false) := by
  have exits : { sd with currentFile := .empty }.exitWork false = { sd with
      currentFile := .empty
      workTimer := false
      cmdFromSd := false
      handler := .idle
      printStats := ⟨.complete, false⟩ } := by
    rw [VirtualSD.exitWork]
    simp [InputStream.empty, reading.isPrinting, PrintStats.noteComplete, PrintStats.noteFinish]
  have isAll := reading.content_split
  rw [noMore, noLines, append_nil] at isAll
  rw [exits]
  refine ⟨.inl ⟨⟨rfl, rfl, ?_⟩, reading.noLoop⟩, some_work⟩
  change sd.executed = _
  rw [isAll]
  exact (terminatedLines_joined reading.separated reading.partialSeparated).symm

theorem Reading.chunk (notPausing : sd.mustPauseWork = false)
    (data_eq : data = (content.drop sd.currentFile.position).take bufferSize)
    (short_eq : short = decide (data.length < bufferSize)) : Reading content { sd with
      currentFile := { sd.currentFile with
        position := sd.currentFile.position + data.length, eofbit := short, failbit := short }
      handler := .yielding (VirtualSD.takeLines locals.partialInput data) }
      (VirtualSD.takeLines locals.partialInput data) := by
  rcases exists_pieces reading.partialSeparated data with
    ⟨lines, rest, pieces, text_eq, separated, noSeparator⟩
  have taken : VirtualSD.takeLines locals.partialInput data = ⟨rest, lines⟩ := by
    rw [VirtualSD.takeLines, pieces]
    simp
  rw [taken]
  have rest_eq : data ++ content.drop (sd.currentFile.position + data.length) =
      content.drop sd.currentFile.position := by
    rw [← drop_drop, data_eq]
    exact prefix_iff_eq_append.mp <| take_prefix _ _
  have length_eq : data.length = min bufferSize (content.length - sd.currentFile.position) := by
    rw [data_eq, length_take, length_drop]
  have inside := reading.inside
  exact { reading.toExecuted with
    content_split := by
      have split := reading.content_split
      rw [noLines, ← rest_eq, ← append_assoc locals.partialInput, text_eq, append_assoc] at split
      exact split
    linesSeparated := separated
    partialSeparated := noSeparator
    inside := by
      dsimp only
      omega
    eof_eq := rfl
    atEnd := fun isShort => by
      dsimp only at isShort ⊢
      rw [short_eq, decide_eq_true_eq] at isShort
      omega
    working := reading.working
    pausesWell := fun isPausing => by
      rw [notPausing] at isPausing
      cases isPausing
    isPrinting := reading.isPrinting }

end

theorem AtHead.readChunk (head : AtHead content sd locals) (noLines : locals.lines = [])
    (notPausing : sd.mustPauseWork = false) : Advances content sd (sd.readChunk locals) := by
  have work_eq := head.work_eq notPausing
  have some_work : 0 < work content sd := by omega
  cases failed : sd.currentFile.failbit with
  | true =>
    have noMore : content.drop sd.currentFile.position = [] := by
      rw [head.atEnd failed, drop_length]
    rw [VirtualSD.readChunk, InputStream.read, failed, Bool.or_true, if_pos rfl]
    exact head.complete noLines noMore some_work
  | false =>
    generalize data_eq : (content.drop sd.currentFile.position).take bufferSize = data
    have read_eq : sd.currentFile.read bufferSize = ({ sd.currentFile with
        position := sd.currentFile.position + data.length
        eofbit := decide (data.length < bufferSize)
        failbit := decide (data.length < bufferSize) }, data) := by
      simp [InputStream.read, head.eof_eq, failed, head.isOpen, head.content_eq, data_eq]
    rw [VirtualSD.readChunk, read_eq]
    dsimp only
    split
    next isEmpty =>
      have noMore : content.drop sd.currentFile.position = [] := by
        rw [← data_eq, length_take, bufferSize] at isEmpty
        exact length_eq_zero_iff.mp (by omega)
      exact head.complete noLines noMore some_work
    next nonempty =>
      have chunk := head.chunk noLines notPausing data_eq.symm rfl
      refine ⟨⟨chunk, head.position_eq⟩, ?_⟩
      have inside : sd.currentFile.position + data.length ≤ content.length := chunk.inside
      rw [work_eq]
      simp only [work, notPausing, Bool.false_eq_true, if_false]
      omega

theorem AtHead.runLine (head : AtHead content sd ⟨partialInput, line :: lines⟩)
    (notPausing : sd.mustPauseWork = false) :
    Advances content sd (sd.runLine partialInput line lines) := by
  have split := head.content_split
  have executed_eq : joined newline (sd.executed ++ [line]) =
      joined newline sd.executed ++ (line ++ [newline]) := by
    rw [joined_append]
    simp [joined]
  have splitBehind : content = joined newline (sd.executed ++ [line]) ++ (joined newline lines ++
      (partialInput ++ content.drop sd.currentFile.position)) := by
    rw [executed_eq]
    rw [joined_cons] at split
    simpa using split
  constructor
  · have linesSeparated := forall_mem_cons.mp head.linesSeparated
    refine ⟨{ head with
      separated := ?_
      goesOn := ⟨_, splitBehind⟩
      content_split := splitBehind
      linesSeparated := linesSeparated.2 }, ?_, rfl, ?_, rfl, ?_⟩
    · exact forall_mem_append.mpr ⟨head.separated, forall_mem_singleton.mpr linesSeparated.1⟩
    · exact mem_append_right _ (mem_singleton_self _)
    · change _ = (joined newline (sd.executed ++ [line])).length
      rw [executed_eq, head.position_eq]
      simp [Nat.add_assoc]
    · change sd.filePosition < sd.filePosition + line.length + 1
      omega
  · rw [head.work_eq notPausing]
    simp [work, VirtualSD.runLine, notPausing]

theorem Reading.lineDone (reading : Reading content sd locals)
    (next_eq : nextFilePosition = (joined newline sd.executed).length)
    (unmoved : sd.nextFilePosition = nextFilePosition)
    (forward : sd.filePosition < nextFilePosition)
    (isInLine : sd.handler = .inLine locals line nextFilePosition) :
    Advances content sd (sd.lineDone locals nextFilePosition) := by
  have done : sd.lineDone locals nextFilePosition = { sd with
      cmdFromSd := false
      filePosition := nextFilePosition
      handler := .head locals } := by
    rw [VirtualSD.lineDone, if_neg]
    exact not_not_intro unmoved
  have inside := reading.position_le
  rw [done]
  constructor
  · exact ⟨{ reading with }, next_eq⟩
  · simp only [work, isInLine]
    split <;> omega

theorem Advances.keeps {before after : VirtualSD} (advances : Advances content before after)
    (mutexBusy : Bool) :
    Sound content after ∧ (mutexBusy = false → work content after < work content before) :=
  ⟨advances.1, fun _ => advances.2⟩

/-- The round of the loop keeps the print sound, and brings it forward if the mutex is
free. -/
theorem AtHead.loopRound (head : AtHead content sd locals) (mutexBusy : Bool) :
    Sound content (sd.loopRound locals mutexBusy) ∧
      (mutexBusy = false → work content (sd.loopRound locals mutexBusy) < work content sd) := by
  rw [VirtualSD.loopRound]
  split
  next isPausing => exact (head.pause isPausing).keeps _
  next goesOn =>
    have notPausing := Bool.eq_false_iff.mpr goesOn
    rcases locals with ⟨partialInput, lines⟩
    cases lines with
    | nil => exact (head.readChunk rfl notPausing).keeps _
    | cons line lines =>
      cases mutexBusy with
      | true =>
        refine ⟨⟨{ head with }, head.position_eq⟩, ?_⟩
        simp
      | false => exact (head.runLine notPausing).keeps _

theorem Executed.mem_terminatedLines (executed : Executed content sd)
    (member : line ∈ sd.executed) : line ∈ terminatedLines newline content := by
  rcases executed.goesOn with ⟨rest, split⟩
  rcases exists_joined newline rest with ⟨lines, last, rest_eq, separated, noSeparator⟩
  have isLines : terminatedLines newline content = sd.executed ++ lines := by
    rw [split, rest_eq, ← append_assoc, ← joined_append]
    exact terminatedLines_joined (forall_mem_append.mpr ⟨executed.separated, separated⟩) noSeparator
  rw [isLines]
  exact mem_append_left _ member

theorem command_eq_self (noLoop : sd.loopStack = [])
    (noBegin : ∀ count, command ≠ .loopBegin count) : sd.command command = sd := by
  cases command with
  | other => rfl
  | loopBegin count => exact absurd rfl (noBegin count)
  | loopEnd => simp [VirtualSD.command, VirtualSD.loopEnd, noLoop]

def BeginsNoLoop (commands : Line → FileCommand) (sd : VirtualSD) : Prop :=
  ∀ locals line nextFilePosition, sd.handler = .inLine locals line nextFilePosition →
    ∀ count, commands line ≠ .loopBegin count

theorem Sound.beginsNoLoop {commands : Line → FileCommand} (plain : NoLoopBegins commands content)
    (sound : Sound content sd) : BeginsNoLoop commands sd := by
  intro locals line nextFilePosition isInLine
  rw [Sound, isInLine] at sound
  exact plain line (sound.1.mem_terminatedLines sound.2.1)

theorem Sound.step {commands : Line → FileCommand} (noBegin : BeginsNoLoop commands sd)
    (sound : Sound content sd) (running : sd.handler ≠ .idle) (mutexBusy : Bool) :
    Sound content (handlerStep commands sd mutexBusy) ∧
      (mutexBusy = false → work content (handlerStep commands sd mutexBusy) < work content sd) := by
  rw [Sound] at sound
  rw [handlerStep]
  generalize at_eq : sd.handler = handler at sound ⊢
  cases handler with
  | idle => exact absurd at_eq running
  | scheduled => exact (sound.1.startWork sound.2 at_eq).keeps _
  | head locals => exact AtHead.loopRound ⟨sound.1, sound.2, .inl at_eq⟩ mutexBusy
  | yielding locals => exact AtHead.loopRound ⟨sound.1, sound.2, .inr at_eq⟩ mutexBusy
  | inLine locals line nextFilePosition =>
    rcases sound with ⟨reading, _, _, next_eq, unmoved, forward⟩
    have advances := reading.lineDone next_eq unmoved forward at_eq
    dsimp only
    rw [VirtualSD.endLine, command_eq_self reading.noLoop (noBegin _ _ _ at_eq)]
    exact advances.keeps _

theorem Sound.beginPause (sound : Sound content sd) (running : sd.handler ≠ .idle)
    (notFailed : sd.currentFile.failbit = false) : Sound content sd.beginPause := by
  rw [VirtualSD.beginPause]
  split
  · rw [Sound] at sound ⊢
    dsimp only
    generalize at_eq : sd.handler = handler at sound ⊢
    cases handler with
    | idle => exact absurd at_eq running
    | scheduled => exact ⟨{ sound.1 with }, sound.2⟩
    | head | yielding | inLine =>
      exact ⟨{ sound.1 with pausesWell := fun _ => notFailed }, sound.2⟩
  · exact sound

theorem resumePaused_of_paused (isPaused : sd.printStats.state = .paused)
    (notWorking : sd.workTimer = false) : resumePaused sd =
      { sd with mustPauseWork := false, workTimer := true, handler := .scheduled } := by
  simp [resumePaused, isPaused, VirtualSD.doResume, notWorking]

theorem Sound.resume (sound : Sound content sd) (isIdle : sd.handler = .idle)
    (notCompleted : ¬ Completed content sd) : Advances content sd (resumePaused sd) := by
  rw [Sound, isIdle] at sound
  rcases sound with ⟨completed, _⟩ | ⟨resumable, notWorking, isPaused⟩
  · exact absurd completed notCompleted
  rw [resumePaused_of_paused (congrArg PrintStats.state isPaused) notWorking]
  constructor
  · exact ⟨{ resumable with }, rfl⟩
  · simp [work, isIdle, isPaused]

/-! ## A print in which all pauses are asked for well -/

section Print

variable {commands : Line → FileCommand} {driven : Driven}

theorem beginPause_handler : sd.beginPause.handler = sd.handler := by
  rw [VirtualSD.beginPause]
  split <;> rfl

theorem requested_handler : driven.requested.handler = driven.1.handler := by
  rw [Driven.requested]
  split
  · exact beginPause_handler
  · rfl

theorem Sound.requested (sound : Sound content driven.1) (running : driven.1.handler ≠ .idle)
    (pausesWell : PausesWell driven) : Sound content driven.requested := by
  rw [Driven.requested]
  split
  next isPause => exact sound.beginPause running (pausesWell running isPause)
  · exact sound

theorem Sound.drives (noBegin : BeginsNoLoop commands driven.1) (sound : Sound content driven.1)
    (pausesWell : PausesWell driven) (notCompleted : ¬ Completed content driven.1) :
    Sound content (drive commands driven).1 ∧
      Prod.Lex (· < ·) (· < ·) ((drive commands driven).2.length,
          work content (drive commands driven).1)
        (driven.2.length, work content driven.1) := by
  rw [drive]
  split
  next isIdle =>
    have advances := sound.resume isIdle notCompleted
    exact ⟨advances.1, .right _ advances.2⟩
  next running =>
    have noBeginRequested : BeginsNoLoop commands driven.requested := by
      rw [BeginsNoLoop, requested_handler]
      exact noBegin
    have step := (sound.requested running pausesWell).step noBeginRequested
      (requested_handler.trans_ne running) driven.request.mutexBusy
    refine ⟨step.1, ?_⟩
    rcases driven with ⟨sd, requests⟩
    cases requests with
    | nil => exact .right _ (step.2 rfl)
    | cons request requests => exact .left _ _ (Nat.lt_succ_self _)

theorem Sound.noLoop (sound : Sound content sd) : sd.loopStack = [] := by
  rw [Sound] at sound
  split at sound
  · rcases sound with completed | paused
    · exact completed.2
    · exact paused.1.noLoop
  · exact sound.1.noLoop
  · exact sound.1.noLoop
  · exact sound.1.noLoop
  · exact sound.1.noLoop

theorem Sound.completes (plain : NoLoopBegins commands content)
    {driven : Driven} (sound : Sound content driven.1)
    (pausesWell : ∀ steps, PausesWell ((drive commands)^[steps] driven)) :
    ∃ steps, Completed content ((drive commands)^[steps] driven).1 ∧
      ((drive commands)^[steps] driven).1.loopStack = [] := by
  by_cases completed : Completed content driven.1
  · exact ⟨0, completed, sound.noLoop⟩
  · have next := sound.drives (sound.beginsNoLoop plain) (pausesWell 0) completed
    rcases completes plain next.1 fun steps => pausesWell (steps + 1) with ⟨steps, atEnd⟩
    exact ⟨steps + 1, atEnd⟩
termination_by (driven.2.length, work content driven.1)
decreasing_by exact next.2

/-! ## A print in which a pause is asked for too late -/

structure Broken (sd : VirtualSD) : Prop where
  failed : sd.currentFile.failbit = true
  isOpen : sd.currentFile.isOpen = true
  stuck : match sd.handler with
    | .idle => sd.printStats.state = .paused ∧ sd.workTimer = false
    | .scheduled => sd.printStats.state = .paused
    | .head _ | .yielding _ => sd.mustPauseWork = true ∧ sd.printStats.state ≠ .error
    | .inLine _ _ _ => False

theorem Broken.not_completed (broken : Broken sd) : ¬ Completed content sd := by
  intro completed
  have stuck := broken.stuck
  rw [completed.1, completed.2.1] at stuck
  exact absurd stuck.1 (by decide)

theorem Broken.exitWork (failed : sd.currentFile.failbit)
    (isOpen : sd.currentFile.isOpen) (noError : sd.printStats.state ≠ .error) :
    Broken (sd.exitWork false) := by
  rw [exitWork_of_open isOpen noError]
  exact ⟨failed, isOpen, rfl, rfl⟩

theorem Broken.beginPause (broken : Broken sd) : Broken sd.beginPause := by
  rw [VirtualSD.beginPause]
  split
  · refine ⟨broken.failed, broken.isOpen, ?_⟩
    have stuck := broken.stuck
    dsimp only
    split at stuck <;> simp_all
  · exact broken

theorem Broken.startWork (broken : Broken sd) (isPaused : sd.printStats.state = .paused) :
    Broken sd.startWork := by
  have gives : sd.startWork = { sd with
      currentFile := { sd.currentFile with eofbit := false }
      workTimer := false
      handler := .idle } := by
    simp [VirtualSD.startWork, InputStream.seekg, InputStream.ok, broken.failed, VirtualSD.giveUp]
  rw [gives]
  exact ⟨broken.failed, broken.isOpen, isPaused, rfl⟩

theorem Broken.step (broken : Broken sd) (mutexBusy : Bool) :
    Broken (handlerStep commands sd mutexBusy) := by
  have stuck := broken.stuck
  rw [handlerStep]
  generalize sd.handler = handler at stuck ⊢
  cases handler with
  | idle => exact broken
  | scheduled => exact broken.startWork stuck
  | head | yielding =>
    dsimp only
    rw [VirtualSD.loopRound, if_pos stuck.1]
    exact .exitWork broken.failed broken.isOpen stuck.2
  | inLine => exact stuck.elim

theorem Broken.resume (broken : Broken sd) (isIdle : sd.handler = .idle) :
    Broken (resumePaused sd) := by
  have stuck := broken.stuck
  rw [isIdle] at stuck
  rw [resumePaused_of_paused stuck.1 stuck.2]
  exact ⟨broken.failed, broken.isOpen, stuck.1⟩

theorem Broken.drives (broken : Broken driven.1) : Broken (drive commands driven).1 := by
  rw [drive]
  split
  next isIdle => exact broken.resume isIdle
  · refine Broken.step ?_ _
    rw [Driven.requested]
    split
    · exact broken.beginPause
    · exact broken

theorem Broken.iterate (broken : Broken driven.1) (steps : ℕ) :
    Broken ((drive commands)^[steps] driven).1 := by
  induction steps generalizing driven with
  | zero => exact broken
  | succ steps induction => exact induction broken.drives

theorem Reading.beginPause (reading : Reading content sd locals) :
    sd.beginPause = { sd with mustPauseWork := true } := by
  rw [VirtualSD.beginPause, if_pos reading.working]

theorem Reading.breaks (reading : Reading content sd locals)
    (failed : sd.currentFile.failbit) (mutexBusy : Bool) :
    Broken (sd.beginPause.loopRound locals mutexBusy) := by
  rw [reading.beginPause, VirtualSD.loopRound, if_pos rfl]
  exact .exitWork failed reading.isOpen reading.noError

theorem Sound.breaks (plain : NoLoopBegins commands content) (sound : Sound content driven.1)
    (late : ¬ PausesWell driven) : Broken (drive commands driven).1 := by
  rw [PausesWell] at late
  push Not at late
  rcases late with ⟨running, isPause, failbit_ne⟩
  have failed := (Bool.not_eq_false _).mp failbit_ne
  rw [drive, if_neg running, Driven.requested, if_pos isPause, handlerStep, beginPause_handler]
  rw [Sound] at sound
  generalize at_eq : driven.1.handler = handler at sound ⊢
  cases handler with
  | idle => exact absurd at_eq running
  | scheduled => exact absurd sound.1.notFailed failbit_ne
  | head | yielding => exact sound.1.breaks failed _
  | inLine locals line nextFilePosition =>
    rcases sound with ⟨reading, member, _, _, unmoved, _⟩
    dsimp only
    rw [reading.beginPause]
    have noLoop : { driven.1 with mustPauseWork := true }.loopStack = [] := reading.noLoop
    rw [VirtualSD.endLine, command_eq_self noLoop (plain line (reading.mem_terminatedLines member)),
      VirtualSD.lineDone, if_neg (not_not_intro unmoved)]
    exact ⟨failed, reading.isOpen, rfl, reading.noError⟩

theorem Completed.iterate (completed : Completed content driven.1) (steps : ℕ) :
    (drive commands)^[steps] driven = driven := by
  refine Function.iterate_fixed ?_ steps
  rw [drive, if_pos completed.1, resumePaused, completed.2.1, if_neg (by decide)]

theorem Sound.pausesWell (plain : NoLoopBegins commands content) (sound : Sound content driven.1)
    (completed : Completed content ((drive commands)^[steps] driven).1) (earlier : ℕ) :
    PausesWell ((drive commands)^[earlier] driven) := by
  induction steps generalizing driven earlier with
  | zero =>
    have isCompleted : Completed content driven.1 := completed
    rw [isCompleted.iterate]
    exact fun running => absurd isCompleted.1 running
  | succ steps induction =>
    by_cases isCompleted : Completed content driven.1
    · rw [isCompleted.iterate]
      exact fun running => absurd isCompleted.1 running
    by_cases well : PausesWell driven
    · cases earlier with
      | zero => exact well
      | succ earlier =>
        have next := sound.drives (sound.beginsNoLoop plain) well isCompleted
        exact induction next.1 completed earlier
    · exact absurd completed ((sound.breaks plain well).iterate steps).not_completed

theorem sound_startPrint (content : List UInt8) : Sound content (startPrint content) := by
  refine ⟨{
    separated := by simp [startPrint, VirtualSD.loadFile]
    goesOn := ⟨content, rfl⟩
    noLoop := rfl
    content_eq := rfl
    isOpen := rfl
    position_eq := rfl
    notFailed := rfl }, rfl⟩

end Print

/-- Every line of the file is executed once and in order and the print ends in
`note_complete`, across all pauses, exactly if no pause is asked for while the stream has
failed. -/
theorem printing_completes_iff (commands : Line → FileCommand) (content : List UInt8)
    (requests : List Request)
    (plain : ∀ line ∈ terminatedLines newline content, commands line = .other) :
    (∃ steps, Completed content ((drive commands)^[steps] (startPrint content, requests)).1) ↔
      ∀ steps, PausesWell ((drive commands)^[steps] (startPrint content, requests)) := by
  have noLoop : NoLoopBegins commands content := by
    intro line member count
    rw [plain line member]
    nofun
  constructor
  · rintro ⟨steps, completed⟩
    exact Sound.pausesWell noLoop (sound_startPrint content) completed
  intro pausesWell
  rcases Sound.completes noLoop (sound_startPrint content) pausesWell with
    ⟨steps, completed, _⟩
  exact ⟨steps, completed⟩

/-- A file of two lines is paused before it is read. -/
theorem printing_completes_iff_two_lines :
    Completed [65, 10, 66, 10] ((drive fun _ => .other)^[11]
        (startPrint [65, 10, 66, 10], [⟨false, false⟩, ⟨true, false⟩])).1 ∧
      ∀ steps, PausesWell ((drive fun _ => .other)^[steps]
        (startPrint [65, 10, 66, 10], [⟨false, false⟩, ⟨true, false⟩])) := by
  have completed : Completed [65, 10, 66, 10] ((drive fun _ => .other)^[11]
      (startPrint [65, 10, 66, 10], [⟨false, false⟩, ⟨true, false⟩])).1 := by
    rw [Completed]
    decide +kernel
  exact ⟨completed, (printing_completes_iff (fun _ => .other) [65, 10, 66, 10]
    [⟨false, false⟩, ⟨true, false⟩] fun _ _ => rfl).mp ⟨11, completed⟩⟩

/-- A pause is asked for during the first of two lines. The print is never complete. -/
theorem printing_stuck_after_pause :
    ¬ ∃ steps, Completed [65, 10, 66, 10] ((drive fun _ => .other)^[steps]
      (startPrint [65, 10, 66, 10],
        [⟨false, false⟩, ⟨false, false⟩, ⟨false, false⟩, ⟨true, false⟩])).1 := by
  rintro ⟨steps, completed⟩
  have well := Sound.pausesWell (fun _ _ _ => FileCommand.noConfusion) (sound_startPrint _)
    completed 3
  rw [PausesWell] at well
  exact absurd (well (by decide +kernel) (by decide +kernel)) (by decide +kernel)

end CentauriCarbon.VirtualSd
