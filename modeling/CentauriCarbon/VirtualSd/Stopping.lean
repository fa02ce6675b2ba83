import CentauriCarbon.VirtualSd.WorkHandler

/-! # Pausing and cancelling a print

`do_pause` and `do_cancel` run beside `work_handler`, at the points where it yields, or
within a line of the file. A call that does not return at once looks again from time to time
whether it still has to wait.
-/

namespace CentauriCarbon.VirtualSd

inductive StopCall where
  | pause
  | cancel
  deriving DecidableEq

/-- A print with the calls that wait. What has happened since the last `do_resume` is kept
as well: the lines that were executed when a call first returned to a caller outside the
file, and whether a `do_cancel` has returned. -/
structure PrintJob where
  sd : VirtualSD
  waiting : List StopCall
  /-- The call of the line that runs. -/
  fileCall : Option StopCall
  stoppedAt : Option (List Line)
  cancelled : Bool

inductive JobEvent where
  | resume
  /-- The handler goes on to its next yield or to the start of a line. -/
  | handlerStep (mutexBusy : Bool)
  | lineEnds (outcome : LineOutcome)
  | outsideCall (call : StopCall)
  | fileCall (call : StopCall)
  /-- A caller outside the file looks whether it still has to wait, and has not. -/
  | outsideReturn (index : ℕ)
  | fileReturn

/-- Others may run; at the head of its loop the handler goes on at once. -/
def Handler.yields : Handler → Bool
  | .head _ => false
  | _ => true

def Handler.isInLine : Handler → Bool
  | .inLine _ _ _ => true
  | _ => false

def Handler.inLoop : Handler → Bool
  | .idle | .scheduled => false
  | _ => true

def VirtualSD.endCall (sd : VirtualSD) : StopCall → VirtualSD
  | .pause => sd
  | .cancel => sd.endCancel

namespace PrintJob

def initial (content : List UInt8) : PrintJob where
  sd := .loadFile content
  waiting := []
  fileCall := none
  stoppedAt := none
  cancelled := false

variable (job : PrintJob)

def returned (call : StopCall) : PrintJob :=
  { job with
    stoppedAt := some (job.stoppedAt.getD job.sd.executed)
    cancelled := job.cancelled || decide (call = .cancel) }

def outsideCall (call : StopCall) : PrintJob :=
  if call = .cancel ∧ job.sd.currentFile.ok = false then
    { job with sd := job.sd.skipCancel }.returned call
  else
    let sd := job.sd.beginPause
    if sd.keepsWaiting then { job with sd, waiting := job.waiting ++ [call] }
    else { job with sd := sd.endCall call }.returned call

def lineCall (call : StopCall) : PrintJob :=
  if call = .cancel ∧ job.sd.currentFile.ok = false then
    { job with sd := job.sd.skipCancel, cancelled := true }
  else
    let sd := job.sd.beginPause
    if sd.keepsWaiting then { job with sd, fileCall := some call }
    else
      { job with sd := sd.endCall call, cancelled := job.cancelled || decide (call = .cancel) }

def step : JobEvent → Option PrintJob
  | .resume =>
    if job.sd.handler.yields then
      match job.sd.doResume with
      | .ok sd => some { job with sd, stoppedAt := none, cancelled := false }
      | .error _ => some job
    else none
  | .handlerStep mutexBusy =>
    match job.sd.handler with
    | .scheduled => some { job with sd := job.sd.startWork }
    | .head locals | .yielding locals =>
      some { job with sd := job.sd.loopRound locals mutexBusy }
    | _ => none
  | .lineEnds outcome =>
    match job.sd.handler, job.fileCall with
    | .inLine locals _ nextFilePosition, none =>
      some { job with sd := job.sd.endLine locals nextFilePosition outcome }
    | _, _ => none
  | .outsideCall call => if job.sd.handler.yields then some (job.outsideCall call) else none
  | .fileCall call =>
    if job.sd.handler.isInLine ∧ job.fileCall = none then some (job.lineCall call) else none
  | .outsideReturn index =>
    match job.waiting[index]? with
    | some call =>
      if job.sd.handler.yields ∧ job.sd.keepsWaiting = false then
        some ({ job with
          sd := job.sd.endCall call, waiting := job.waiting.eraseIdx index }.returned call)
      else none
    | none => none
  | .fileReturn =>
    match job.fileCall with
    | some call =>
      if job.sd.keepsWaiting then none
      else
        some { job with
          sd := job.sd.endCall call
          fileCall := none
          cancelled := job.cancelled || decide (call = .cancel) }
    | none => none

/-- The calls come from outside the file. A print is cancelled after it has been started (or
cancelled before) and while the stream has not failed; no line fails while a `do_cancel`
waits, and the print is not resumed while a call waits (`do_resume` does nothing while the
handler works). -/
def stopsWell : JobEvent → Bool
  | .resume => job.waiting.isEmpty || job.sd.workTimer
  | .lineEnds outcome => decide (outcome = .commandError → .cancel ∉ job.waiting)
  | .outsideCall .cancel =>
    job.sd.currentFile.ok &&
      (job.sd.printStats.started || decide (job.sd.printStats.state = .cancelled))
  | .fileCall _ => false
  | _ => true

def stoppingStep (event : JobEvent) : Option PrintJob :=
  if job.stopsWell event then job.step event else none

/-- What pausing and cancelling are for: a call that comes from the file has returned, no
line is executed after a call has returned to a caller outside the file, and a print that
was cancelled stays so. -/
structure Stops (job : PrintJob) : Prop where
  fileCallReturns : job.fileCall = none
  noFurtherLine : ∀ lines, job.stoppedAt = some lines → job.sd.executed = lines
  isCancelled : job.cancelled = true → job.sd.printStats.state = .cancelled

end PrintJob

structure Consistent (sd : VirtualSD) : Prop where
  working : sd.workTimer = true ↔ sd.handler ≠ .idle
  fromSd : sd.cmdFromSd = sd.handler.isInLine

variable {sd : VirtualSD}

theorem Consistent.giveUp (notFromSd : sd.cmdFromSd = false) : Consistent sd.giveUp where
  working := by simp [VirtualSD.giveUp]
  fromSd := notFromSd

theorem Consistent.exitWork (hasError : Bool) : Consistent (sd.exitWork hasError) := by
  simp only [VirtualSD.exitWork]
  split_ifs <;> exact ⟨by simp, rfl⟩

theorem Consistent.startWork (consistent : Consistent sd) (isScheduled : sd.handler = .scheduled) :
    Consistent sd.startWork := by
  have working : sd.workTimer := consistent.working.mpr (by simp [isScheduled])
  have notFromSd : sd.cmdFromSd = false := by rw [consistent.fromSd, isScheduled]; rfl
  simp only [VirtualSD.startWork]
  split_ifs
  · exact .giveUp notFromSd
  · exact ⟨by simp [working], notFromSd⟩

theorem Consistent.loopRound (consistent : Consistent sd) (atHead : sd.handler.inLoop)
    (notInLine : sd.handler.isInLine = false) (mutexBusy : Bool) :
    Consistent (sd.loopRound locals mutexBusy) := by
  have working : sd.workTimer := by
    apply consistent.working.mpr
    intro isIdle
    rw [isIdle] at atHead
    cases atHead
  have notFromSd := consistent.fromSd.trans notInLine
  rw [VirtualSD.loopRound]
  split
  · exact .exitWork false
  split
  · simp only [VirtualSD.readChunk]
    split_ifs
    · exact .exitWork false
    · exact ⟨by simp [working], notFromSd⟩
  · split_ifs
    · exact ⟨by simp [working], notFromSd⟩
    · exact ⟨by simp [VirtualSD.runLine, working], rfl⟩

theorem Consistent.endLine (consistent : Consistent sd)
    (isInLine : sd.handler = .inLine locals line nextFilePosition) (outcome : LineOutcome) :
    Consistent (sd.endLine locals nextFilePosition outcome) := by
  have working : sd.workTimer := consistent.working.mpr (by simp [isInLine])
  cases outcome with
  | commandError => exact .exitWork true
  | otherException => exact .exitWork false
  | done command =>
    rcases command_eq sd command with ⟨_, _, after_eq⟩
    rw [VirtualSD.endLine, after_eq]
    simp only [VirtualSD.lineDone]
    split_ifs
    · exact .giveUp rfl
    · exact ⟨by simp [working], rfl⟩
    · exact ⟨by simp [working], rfl⟩

def Going (sd : VirtualSD) : Prop :=
  sd.handler.inLoop = true → sd.printStats.started = true ∧ sd.currentFile.isOpen = true

theorem going_of_idle (isIdle : sd.handler = .idle) : Going sd := by
  intro inLoop
  rw [isIdle] at inLoop
  cases inLoop

theorem isOpen_of_seekg {stream : InputStream} (sought : (stream.seekg position).ok) :
    (stream.seekg position).isOpen := by
  rw [InputStream.seekg] at sought ⊢
  split_ifs at sought ⊢ with failed isOpen
  · simp [InputStream.ok, failed] at sought
  · exact isOpen
  · simp [InputStream.ok] at sought

theorem Going.startWork : Going sd.startWork := by
  simp only [VirtualSD.startWork]
  split_ifs with failed
  · exact going_of_idle rfl
  · exact fun _ => ⟨rfl, isOpen_of_seekg (by simpa using failed)⟩

theorem Going.loopRound (started : sd.printStats.started)
    (isOpen : sd.currentFile.isOpen) (mutexBusy : Bool) :
    Going (sd.loopRound locals mutexBusy) := by
  rw [VirtualSD.loopRound]
  split
  · exact going_of_idle (exitWork_frame false).2.2
  split
  · simp only [VirtualSD.readChunk]
    split_ifs
    · exact going_of_idle (exitWork_frame false).2.2
    · refine fun _ => ⟨started, ?_⟩
      simp only [InputStream.read]
      split_ifs <;> exact isOpen
  · split_ifs <;> exact fun _ => ⟨started, isOpen⟩

theorem seekg_isOpen (stream : InputStream) (position : ℕ) :
    (stream.seekg position).isOpen = stream.isOpen := by
  rw [InputStream.seekg]
  split_ifs <;> rfl

theorem Going.endLine (started : sd.printStats.started)
    (isOpen : sd.currentFile.isOpen) (nextFilePosition : ℕ) (outcome : LineOutcome) :
    Going (sd.endLine locals nextFilePosition outcome) := by
  cases outcome with
  | commandError => exact going_of_idle (exitWork_frame true).2.2
  | otherException => exact going_of_idle (exitWork_frame false).2.2
  | done command =>
    rcases command_eq sd command with ⟨_, _, after_eq⟩
    rw [VirtualSD.endLine, after_eq]
    simp only [VirtualSD.lineDone]
    split_ifs
    · exact going_of_idle rfl
    · exact fun _ => ⟨started, (seekg_isOpen _ _).trans isOpen⟩
    · exact fun _ => ⟨started, isOpen⟩

structure Halted (sd : VirtualSD) : Prop where
  notInLine : sd.handler.isInLine = false
  pauses : sd.handler = .idle ∨ sd.mustPauseWork = true

theorem Halted.of_idle (isIdle : sd.handler = .idle) : Halted sd where
  notInLine := by rw [isIdle]; rfl
  pauses := .inl isIdle

theorem Halted.startWork (pausing : sd.mustPauseWork) : Halted sd.startWork := by
  simp only [VirtualSD.startWork]
  split_ifs
  · exact .of_idle rfl
  · exact ⟨rfl, .inr pausing⟩

structure Cancelled (sd : VirtualSD) : Prop where
  isCancelled : sd.printStats = ⟨.cancelled, false⟩
  isClosed : sd.currentFile.isOpen = false

theorem Cancelled.startWork (cancelled : Cancelled sd) : Cancelled sd.startWork := by
  have failed : (sd.currentFile.seekg sd.filePosition).ok = false := by
    cases sought : (sd.currentFile.seekg sd.filePosition).ok with
    | false => rfl
    | true =>
      have isOpen := isOpen_of_seekg sought
      rw [seekg_isOpen, cancelled.isClosed] at isOpen
      cases isOpen
  simp only [VirtualSD.startWork, failed, Bool.not_false, if_true]
  exact ⟨cancelled.isCancelled, (seekg_isOpen _ _).trans cancelled.isClosed⟩

theorem Cancelled.exitWork (cancelled : Cancelled sd) : Cancelled (sd.exitWork false) := by
  have exits : sd.exitWork false = { sd with
      workTimer := false, cmdFromSd := false, handler := .idle } := by
    simp [VirtualSD.exitWork, cancelled.isClosed, cancelled.isCancelled,
      PrintStats.noteComplete, PrintStats.noteFinish]
  rw [exits]
  exact { cancelled with }

theorem cancelled_endCancel
    (canCancel : sd.printStats.started ∨ sd.printStats.state = .cancelled) :
    Cancelled sd.endCancel := by
  constructor
  · rcases sd with ⟨_, _, _, _, _, _, _, ⟨state, started⟩, _, _⟩
    cases started with
    | true => rfl
    | false =>
      have isCancelled : state = .cancelled := by simpa using canCancel
      rw [isCancelled]
      rfl
  · simp only [VirtualSD.endCancel, InputStream.clear, InputStream.close]
    split_ifs with isOpen
    · rfl
    · simpa using isOpen

namespace PrintJob

structure Stoppable (job : PrintJob) : Prop where
  noFileCall : job.fileCall = none
  consistent : Consistent job.sd
  waits : job.waiting ≠ [] → job.sd.mustPauseWork = true
  stopped : ∀ lines, job.stoppedAt = some lines → job.sd.executed = lines ∧ Halted job.sd
  cancelled : job.cancelled = true → job.stoppedAt.isSome = true ∧ Cancelled job.sd
  going : job.cancelled = false → Going job.sd
  cancelWaits : .cancel ∈ job.waiting → job.cancelled = false → job.sd.printStats.started = true

variable {job next : PrintJob}

theorem stoppable_initial (content : List UInt8) : (initial content).Stoppable where
  noFileCall := rfl
  consistent := ⟨by simp [initial, VirtualSD.loadFile], rfl⟩
  waits := fun some_wait => absurd rfl some_wait
  stopped := nofun
  cancelled := nofun
  going := fun _ => going_of_idle rfl
  cancelWaits := nofun

/-- The end of a line keeps whether a print has been started, unless the line fails. -/
theorem endLine_started (started : sd.printStats.started)
    (isOpen : sd.currentFile.isOpen) (noError : outcome ≠ .commandError) :
    (sd.endLine locals nextFilePosition outcome).printStats.started := by
  cases outcome with
  | commandError => exact absurd rfl noError
  | otherException =>
    simp only [VirtualSD.endLine, VirtualSD.exitWork, Bool.false_eq_true, if_false, isOpen,
      if_true, PrintStats.notePause]
    split_ifs <;> exact started
  | done command =>
    rcases command_eq sd command with ⟨_, _, after_eq⟩
    rw [VirtualSD.endLine, after_eq]
    simp only [VirtualSD.lineDone]
    split_ifs <;> exact started

theorem endLine_mustPauseWork (outcome : LineOutcome) :
    (sd.endLine locals nextFilePosition outcome).mustPauseWork = sd.mustPauseWork := by
  cases outcome with
  | commandError => rfl
  | otherException =>
    simp only [VirtualSD.endLine, VirtualSD.exitWork]
    split_ifs <;> rfl
  | done command =>
    rcases command_eq sd command with ⟨_, _, after_eq⟩
    rw [VirtualSD.endLine, after_eq]
    simp only [VirtualSD.lineDone]
    split_ifs <;> rfl

theorem beginPause_pauses (working : sd.beginPause.workTimer) : sd.beginPause.mustPauseWork := by
  rw [VirtualSD.beginPause] at working ⊢
  split_ifs at working ⊢ with isWorking
  · rfl
  · exact absurd working isWorking

theorem beginPause_printStats : sd.beginPause.printStats = sd.printStats := by
  rw [VirtualSD.beginPause]
  split <;> rfl

section

variable (stoppable : job.Stoppable)
include stoppable

theorem Stoppable.not_stopped (notHalted : ¬ Halted job.sd) :
    job.stoppedAt = none ∧ job.cancelled = false := by
  have notStopped : job.stoppedAt = none := by
    cases stopped : job.stoppedAt with
    | none => rfl
    | some lines => exact absurd (stoppable.stopped lines stopped).2 notHalted
  refine ⟨notStopped, Bool.eq_false_iff.mpr fun isCancelled => ?_⟩
  have isSome := (stoppable.cancelled isCancelled).1
  rw [notStopped] at isSome
  cases isSome

/-! ## Steps of the handler -/

theorem Stoppable.startWork (isScheduled : job.sd.handler = .scheduled) :
    { job with sd := job.sd.startWork }.Stoppable where
  __ := stoppable
  consistent := stoppable.consistent.startWork isScheduled
  waits := fun some_wait => by
    have pausing := stoppable.waits some_wait
    simp only [VirtualSD.startWork]
    split_ifs <;> exact pausing
  stopped := fun lines isStopped => by
    rcases stoppable.stopped lines isStopped with ⟨executed_eq, halted⟩
    have pausing : job.sd.mustPauseWork := by
      rcases halted.pauses with isIdle | pausing
      · rw [isScheduled] at isIdle
        cases isIdle
      · exact pausing
    exact ⟨startWork_frame.2.trans executed_eq, .startWork pausing⟩
  cancelled := fun isCancelled =>
    (stoppable.cancelled isCancelled).imp_right .startWork
  going := fun _ => .startWork
  cancelWaits := fun waits notCancelled => by
    have started := stoppable.cancelWaits waits notCancelled
    simp only [VirtualSD.startWork]
    split_ifs
    · exact started
    · rfl

theorem Stoppable.pause (inLoop : job.sd.handler.inLoop)
    (pausing : job.sd.mustPauseWork) :
    { job with sd := job.sd.exitWork false }.Stoppable where
  __ := stoppable
  consistent := .exitWork false
  waits := fun _ => by
    simp only [VirtualSD.exitWork]
    split_ifs <;> exact pausing
  stopped := fun lines isStopped =>
    ⟨(exitWork_frame false).2.1.trans (stoppable.stopped lines isStopped).1,
      .of_idle (exitWork_frame false).2.2⟩
  cancelled := fun isCancelled =>
    (stoppable.cancelled isCancelled).imp_right .exitWork
  going := fun _ => going_of_idle (exitWork_frame false).2.2
  cancelWaits := fun _ notCancelled => by
    rcases stoppable.going notCancelled inLoop with ⟨started, isOpen⟩
    simp only [VirtualSD.exitWork, Bool.false_eq_true, if_false, isOpen, if_true,
      PrintStats.notePause]
    split_ifs <;> exact started

/-- A step of a print that has not been stopped. -/
theorem Stoppable.goes_on (notHalted : ¬ Halted job.sd)
    (consistent : Consistent after) (going : Going after)
    (waits : job.waiting ≠ [] → after.mustPauseWork)
    (cancelWaits : .cancel ∈ job.waiting → after.printStats.started) :
    { job with sd := after }.Stoppable := by
  have notStopped := stoppable.not_stopped notHalted
  exact { stoppable with
    consistent
    waits
    stopped := fun lines isStopped => by
      rw [notStopped.1] at isStopped
      cases isStopped
    cancelled := fun isCancelled => by
      rw [notStopped.2] at isCancelled
      cases isCancelled
    going := fun _ => going
    cancelWaits := fun isWaiting _ => cancelWaits isWaiting }

theorem Stoppable.loopRound (inLoop : job.sd.handler.inLoop)
    (notInLine : job.sd.handler.isInLine = false) (mutexBusy : Bool) :
    { job with sd := job.sd.loopRound locals mutexBusy }.Stoppable := by
  cases pausing : job.sd.mustPauseWork with
  | true =>
    have exits : job.sd.loopRound locals mutexBusy = job.sd.exitWork false := by
      rw [VirtualSD.loopRound, if_pos pausing]
    rw [exits]
    exact stoppable.pause inLoop pausing
  | false =>
    have notHalted : ¬ Halted job.sd := by
      rintro ⟨_, isIdle | isPausing⟩
      · rw [isIdle] at inLoop
        cases inLoop
      · rw [pausing] at isPausing
        cases isPausing
    have notCancelled := (stoppable.not_stopped notHalted).2
    rcases stoppable.going notCancelled inLoop with ⟨started, isOpen⟩
    have noneWaits : ¬job.waiting ≠ [] := by
      intro some_wait
      rw [stoppable.waits some_wait] at pausing
      cases pausing
    exact stoppable.goes_on notHalted
      (stoppable.consistent.loopRound inLoop notInLine mutexBusy)
      (.loopRound started isOpen mutexBusy) (absurd · noneWaits)
      fun waits => absurd (List.ne_nil_of_mem waits) noneWaits

theorem Stoppable.lineEnds (isInLine : job.sd.handler = .inLine locals line nextFilePosition)
    (noFailure : outcome = .commandError → .cancel ∉ job.waiting) :
    { job with sd := job.sd.endLine locals nextFilePosition outcome }.Stoppable := by
  have notHalted : ¬ Halted job.sd := by
    rintro ⟨notInLine, _⟩
    rw [isInLine] at notInLine
    cases notInLine
  have inLoop : job.sd.handler.inLoop := by
    rw [isInLine]
    rfl
  rcases stoppable.going (stoppable.not_stopped notHalted).2 inLoop with ⟨started, isOpen⟩
  exact stoppable.goes_on notHalted (stoppable.consistent.endLine isInLine outcome)
    (.endLine started isOpen _ _)
    (fun some_wait => (endLine_mustPauseWork outcome).trans (stoppable.waits some_wait))
    fun waits => endLine_started started isOpen fun failed => noFailure failed waits

/-! ## Calls -/

theorem Stoppable.beginPause :
    { job with sd := job.sd.beginPause }.Stoppable := by
  rw [VirtualSD.beginPause]
  split
  · exact { stoppable with
    consistent := ⟨stoppable.consistent.working, stoppable.consistent.fromSd⟩
    waits := fun _ => rfl
    stopped := fun lines isStopped =>
      (stoppable.stopped lines isStopped).imp_right fun halted => ⟨halted.notInLine, .inr rfl⟩
    cancelled := fun isCancelled =>
      (stoppable.cancelled isCancelled).imp_right fun cancelled => { cancelled with } }
  · exact stoppable

/-- Where no call has to wait, a pause that was asked for halts the handler. -/
theorem Stoppable.halted (notWaiting : job.sd.keepsWaiting = false)
    (pausing : job.sd.workTimer → job.sd.mustPauseWork) : Halted job.sd := by
  by_cases isIdle : job.sd.handler = .idle
  · exact .of_idle isIdle
  · have working := stoppable.consistent.working.mpr isIdle
    rw [VirtualSD.keepsWaiting, working, Bool.true_and, stoppable.consistent.fromSd] at notWaiting
    exact ⟨notWaiting, .inr (pausing working)⟩

theorem Stoppable.returns (halted : Halted job.sd)
    {waiting : List StopCall} (fewer : waiting ⊆ job.waiting)
    (canCancel : call = .cancel → job.sd.printStats.started ∨
      job.sd.printStats.state = .cancelled) :
    ({ job with sd := job.sd.endCall call, waiting }.returned call).Stoppable := by
  have waits : waiting ≠ [] → job.sd.mustPauseWork := by
    intro some_wait
    apply stoppable.waits
    intro noneWaits
    apply some_wait
    rw [noneWaits] at fewer
    exact List.subset_nil.mp fewer
  have executed_eq : job.stoppedAt.getD job.sd.executed = job.sd.executed := by
    cases stopped : job.stoppedAt with
    | none => rfl
    | some lines => exact (stoppable.stopped lines stopped).1.symm
  cases call with
  | pause => exact { stoppable with
      waits
      stopped := fun lines isStopped => by
        cases isStopped
        exact ⟨executed_eq.symm, halted⟩
      cancelled := fun isCancelled =>
        ⟨rfl, (stoppable.cancelled (by simpa [returned] using isCancelled)).2⟩
      going := fun notCancelled => stoppable.going (by simpa [returned] using notCancelled)
      cancelWaits := fun isWaiting notCancelled =>
        stoppable.cancelWaits (fewer isWaiting) (by simpa [returned] using notCancelled) }
  | cancel => exact { stoppable with
      consistent := ⟨stoppable.consistent.working, stoppable.consistent.fromSd⟩
      waits
      stopped := fun lines isStopped => by
        cases isStopped
        exact ⟨executed_eq.symm, halted.notInLine, halted.pauses⟩
      cancelled := fun _ => ⟨rfl, cancelled_endCancel (canCancel rfl)⟩
      going := fun notCancelled => by simp [returned] at notCancelled
      cancelWaits := fun _ notCancelled => by simp [returned] at notCancelled }

theorem Stoppable.joins (keepsWaiting : job.sd.keepsWaiting)
    (pausing : job.sd.mustPauseWork) (call : StopCall) :
    { job with waiting := job.waiting ++ [call] }.Stoppable := by
  rw [VirtualSD.keepsWaiting, Bool.and_eq_true] at keepsWaiting
  have inLoop : job.sd.handler.inLoop := by
    have isInLine := stoppable.consistent.fromSd.symm.trans keepsWaiting.2
    generalize job.sd.handler = handler at isInLine
    cases handler with
    | inLine => rfl
    | _ => cases isInLine
  exact { stoppable with
    waits := fun _ => pausing
    cancelWaits := fun _ notCancelled => (stoppable.going notCancelled inLoop).1 }

theorem Stoppable.outsideCall (allowed : job.stopsWell (.outsideCall call)) :
    (job.outsideCall call).Stoppable := by
  have canCancel : call = .cancel → job.sd.currentFile.ok ∧
      (job.sd.printStats.started ∨ job.sd.printStats.state = .cancelled) := by
    rintro rfl
    simpa [stopsWell] using allowed
  rw [PrintJob.outsideCall, if_neg]
  · dsimp only
    split
    next keepsWaiting =>
      have working : job.sd.beginPause.workTimer := by
        rw [VirtualSD.keepsWaiting, Bool.and_eq_true] at keepsWaiting
        exact keepsWaiting.1
      exact stoppable.beginPause.joins keepsWaiting (beginPause_pauses working) call
    next notWaiting =>
      have halted := stoppable.beginPause.halted (Bool.eq_false_iff.mpr notWaiting)
        beginPause_pauses
      apply stoppable.beginPause.returns halted (List.Subset.refl _)
      intro isCancel
      rw [beginPause_printStats]
      exact (canCancel isCancel).2
  · rintro ⟨isCancel, failed⟩
    rw [(canCancel isCancel).1] at failed
    cases failed

theorem Stoppable.outsideReturn (isCall : job.waiting[index]? = some call)
    (notWaiting : job.sd.keepsWaiting = false) : ({ job with
      sd := job.sd.endCall call
      waiting := job.waiting.eraseIdx index }.returned call).Stoppable := by
  have member : call ∈ job.waiting := List.mem_of_getElem? isCall
  have pausing := stoppable.waits (List.ne_nil_of_mem member)
  refine stoppable.returns (stoppable.halted notWaiting fun _ => pausing) List.eraseIdx_subset ?_
  rintro rfl
  cases isCancelled : job.cancelled with
  | true =>
    right
    rw [(stoppable.cancelled isCancelled).2.isCancelled]
  | false => exact .inl (stoppable.cancelWaits member isCancelled)

theorem Stoppable.resume (allowed : job.stopsWell .resume) (resumed : job.sd.doResume = .ok sd) :
    { job with sd, stoppedAt := none, cancelled := false }.Stoppable := by
  rw [VirtualSD.doResume] at resumed
  split at resumed
  · cases resumed
  next notWorking =>
    cases resumed
    have noneWaits : job.waiting = [] := by simpa [stopsWell, notWorking] using allowed
    have isIdle : job.sd.handler = .idle := by
      by_contra atWork
      exact notWorking (stoppable.consistent.working.mpr atWork)
    exact { stoppable with
      consistent := ⟨by simp, by rw [stoppable.consistent.fromSd, isIdle]; rfl⟩
      waits := fun some_wait => absurd noneWaits some_wait
      stopped := nofun
      cancelled := nofun
      going := nofun
      cancelWaits := fun isWaiting => by
        rw [noneWaits] at isWaiting
        cases isWaiting }

theorem Stoppable.step (stepped : job.stoppingStep event = some next) : next.Stoppable := by
  rw [stoppingStep, Option.ite_none_right_eq_some] at stepped
  rcases stepped with ⟨allowed, stepped⟩
  cases event with
  | resume =>
    rw [PrintJob.step, Option.ite_none_right_eq_some] at stepped
    generalize resumed : job.sd.doResume = result at stepped
    cases result with
    | error =>
      cases stepped.2
      exact stoppable
    | ok sd =>
      cases stepped.2
      exact stoppable.resume allowed resumed
  | handlerStep mutexBusy =>
    rw [PrintJob.step] at stepped
    generalize at_eq : job.sd.handler = handler at stepped
    cases handler with
    | idle | inLine => cases stepped
    | scheduled =>
      cases stepped
      exact stoppable.startWork at_eq
    | head | yielding =>
      cases stepped
      exact stoppable.loopRound (by rw [at_eq]; rfl) (by rw [at_eq]; rfl) mutexBusy
  | lineEnds outcome =>
    rw [PrintJob.step] at stepped
    split at stepped
    next locals line nextFilePosition isInLine _ =>
      cases stepped
      exact stoppable.lineEnds isInLine (of_decide_eq_true allowed)
    · cases stepped
  | outsideCall call =>
    rw [PrintJob.step, Option.ite_none_right_eq_some] at stepped
    cases stepped.2
    exact stoppable.outsideCall allowed
  | fileCall call => cases allowed
  | outsideReturn index =>
    rw [PrintJob.step] at stepped
    split at stepped
    next call isCall =>
      rw [Option.ite_none_right_eq_some] at stepped
      cases stepped.2
      exact stoppable.outsideReturn isCall stepped.1.2
    · cases stepped
  | fileReturn =>
    rw [PrintJob.step, stoppable.noFileCall] at stepped
    cases stepped

end

/-! ## A call from the file -/

structure SelfWaiting (call : StopCall) (job : PrintJob) : Prop where
  isCalling : job.fileCall = some call
  isInLine : job.sd.handler.isInLine = true
  working : job.sd.workTimer = true
  fromSd : job.sd.cmdFromSd = true

theorem SelfWaiting.keepsWaiting (self : SelfWaiting call job) : job.sd.keepsWaiting := by
  rw [VirtualSD.keepsWaiting, self.working, self.fromSd]
  rfl

/-- The line cannot end before its call has returned, and the call waits for the end of the
line. -/
theorem SelfWaiting.step (self : SelfWaiting call job) (stepped : job.step event = some next) :
    SelfWaiting call next := by
  have isInLine := self.isInLine
  cases event with
  | resume =>
    rw [PrintJob.step, Option.ite_none_right_eq_some, VirtualSD.doResume,
      if_pos self.working] at stepped
    cases stepped.2
    exact self
  | handlerStep mutexBusy =>
    rw [PrintJob.step] at stepped
    generalize job.sd.handler = handler at stepped isInLine
    cases handler with
    | inLine => cases stepped
    | _ => cases isInLine
  | lineEnds outcome =>
    rw [PrintJob.step] at stepped
    split at stepped
    next noCall =>
      rw [self.isCalling] at noCall
      cases noCall
    · cases stepped
  | outsideCall outside =>
    rw [PrintJob.step, Option.ite_none_right_eq_some, PrintJob.outsideCall,
      VirtualSD.beginPause, if_pos self.working] at stepped
    have waits : { job.sd with mustPauseWork := true }.keepsWaiting := self.keepsWaiting
    dsimp only at stepped
    rw [if_pos waits] at stepped
    split at stepped <;> cases stepped.2 <;> exact { self with }
  | fileCall other =>
    rw [PrintJob.step, self.isCalling] at stepped
    simp at stepped
  | outsideReturn index =>
    rw [PrintJob.step, self.keepsWaiting] at stepped
    split at stepped
    · simp at stepped
    · cases stepped
  | fileReturn =>
    rw [PrintJob.step, self.isCalling, self.keepsWaiting] at stepped
    cases stepped

theorem SelfWaiting.run (self : SelfWaiting call job)
    (ran : runEvents PrintJob.step job events = some next) : next.fileCall = some call :=
  (runEvents_invariant (fun _ _ _ before stepped => before.step stepped) self ran).isCalling

end PrintJob

/-- In every run whose steps all meet the condition: no call from the file is left waiting,
after a call has returned to a caller outside the file no further line is executed until the
next `do_resume`, and a cancelled print stays cancelled. -/
theorem stopping_stops_file (content : List UInt8) (events : List JobEvent) (final : PrintJob)
    (ran : runEvents PrintJob.stoppingStep (.initial content) events = some final) :
    final.Stops := by
  have stoppable : final.Stoppable :=
    runEvents_invariant (fun _ _ _ before stepped => before.step stepped)
      (PrintJob.stoppable_initial content) ran
  exact {
    fileCallReturns := stoppable.noFileCall
    noFurtherLine := fun lines isStopped => (stoppable.stopped lines isStopped).1
    isCancelled := fun isCancelled => by
      rw [(stoppable.cancelled isCancelled).2.isCancelled] }

def pauseInLine : List JobEvent :=
  [.resume, .handlerStep false, .handlerStep false, .handlerStep false, .outsideCall .pause,
    .resume, .lineEnds (.done .other), .handlerStep false, .outsideReturn 0]

/-- A call has to wait for the line that runs. -/
theorem stopping_stops_file_in_line :
    (runEvents PrintJob.stoppingStep (.initial [65, 10, 66, 10]) pauseInLine).map
        (fun job => (job.stoppedAt, job.sd.handler.yields)) = some (some [[65]], true) ∧
      ∃ final, runEvents PrintJob.stoppingStep (.initial [65, 10, 66, 10]) pauseInLine =
          some final ∧ final.Stops := by
  have runs : (runEvents PrintJob.stoppingStep (.initial [65, 10, 66, 10]) pauseInLine).map
      (fun job => (job.stoppedAt, job.sd.handler.yields)) = some (some [[65]], true) := by
    decide +kernel
  rcases Option.map_eq_some_iff.mp runs with ⟨final, ran, _⟩
  exact ⟨runs, final, ran, stopping_stops_file [65, 10, 66, 10] pauseInLine final ran⟩

def pauseFromFile : List JobEvent :=
  [.resume, .handlerStep false, .handlerStep false, .handlerStep false, .fileCall .pause]

def cancelInLastChunk : List JobEvent :=
  [.resume, .handlerStep false, .handlerStep false, .outsideCall .cancel, .handlerStep false,
    .lineEnds (.done .other), .handlerStep false]

/-- A call from the file never returns; a file is printed to its end after `do_cancel` has
returned, and is complete. -/
theorem stopping_fails :
    (∃ job, runEvents PrintJob.step (.initial [65, 10]) pauseFromFile = some job ∧
      ∀ events final, runEvents PrintJob.step job events = some final →
        final.fileCall = some .pause) ∧
    (runEvents PrintJob.step (.initial [65, 10]) cancelInLastChunk).map (fun job =>
        (job.cancelled, job.stoppedAt, job.sd.executed, job.sd.printStats.state)) =
      some (true, some [], [[65]], .complete) := by
  constructor
  · refine exists_of_observed (fun job =>
      (job.fileCall, job.sd.handler.isInLine, job.sd.workTimer, job.sd.cmdFromSd))
      (some .pause, true, true, true) (by decide +kernel) fun job ran observed => ?_
    simp only [Prod.mk.injEq] at observed
    intro events final later
    exact PrintJob.SelfWaiting.run
      ⟨observed.1, observed.2.1, observed.2.2.1, observed.2.2.2⟩ later
  · decide +kernel

end CentauriCarbon.VirtualSd
