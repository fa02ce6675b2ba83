import CentauriCarbon.VirtualSd.Printing

/-! # Loops in the file

A file with loops is to be printed as if it had been unrolled. It never is: the loop stack
keeps every loop that was begun, and the jump back of a loop goes to the line behind its
end.
-/

namespace CentauriCarbon.VirtualSd

open List

/-- Lines whose loops are properly nested, and the other lines of them with every loop
unrolled. -/
inductive Unrolls (commands : Line → FileCommand) : List Line → List Line → Prop where
  | nil : Unrolls commands [] []
  | other {line : Line} {lines unrolled : List Line} :
      commands line = .other → Unrolls commands lines unrolled →
      Unrolls commands (line :: lines) (line :: unrolled)
  | loop {first last : Line} {body lines unrolledBody unrolled : List Line} {count : ℕ} :
      commands first = .loopBegin count → 1 ≤ count → Unrolls commands body unrolledBody →
      commands last = .loopEnd → Unrolls commands lines unrolled →
      Unrolls commands (first :: body ++ last :: lines)
        ((replicate count unrolledBody).flatten ++ unrolled)

/-- A print that is never paused; the G-code mutex may be busy. -/
def unpaused (mutexBusy : List Bool) : List Request := mutexBusy.map fun busy => ⟨false, busy⟩

/-- The print has ended, the lines other than those of loops are as they should be, and no
loop is left. -/
def PrintsUnrolled (commands : Line → FileCommand) (unrolled : List Line) (sd : VirtualSD) : Prop :=
  sd.handler = .idle ∧ sd.printStats.state ≠ .paused ∧
    sd.executed.filter (fun line => commands line = .other) = unrolled ∧ sd.loopStack = []

variable {sd : VirtualSD}
  {driven : Driven}

/-! ## Without loops -/

theorem Unrolls.of_noBegin (unrolls : Unrolls commands lines unrolled)
    (noBegin : ∀ line ∈ lines, ∀ count, commands line ≠ .loopBegin count) :
    lines.filter (fun line => commands line = .other) = unrolled := by
  induction unrolls with
  | nil => rfl
  | other isOther _ induction =>
    rw [filter_cons_of_pos (by simpa using isOther),
      induction fun line member => noBegin line (mem_cons_of_mem _ member)]
  | loop isBegin =>
    exact absurd isBegin (noBegin _ mem_cons_self _)

theorem unpaused_drive (commands : Line → FileCommand)
    (isUnpaused : driven.2 = unpaused mutexBusy) :
    ∃ later, (drive commands driven).2 = unpaused later := by
  rw [drive]
  split
  · exact ⟨mutexBusy, isUnpaused⟩
  · exact ⟨mutexBusy.tail, by rw [isUnpaused, unpaused, ← map_tail]; rfl⟩

theorem unpaused_iterate (commands : Line → FileCommand) (driven : Driven)
    (isUnpaused : driven.2 = unpaused mutexBusy) (steps : ℕ) :
    ∃ later, ((drive commands)^[steps] driven).2 = unpaused later := by
  induction steps generalizing driven mutexBusy with
  | zero => exact ⟨mutexBusy, isUnpaused⟩
  | succ steps induction =>
    rcases unpaused_drive commands isUnpaused with ⟨later, isLater⟩
    exact induction _ isLater

theorem pausesWell_of_unpaused (isUnpaused : driven.2 = unpaused mutexBusy) :
    PausesWell driven := by
  intro _ isPause
  rcases driven with ⟨sd, requests⟩
  subst isUnpaused
  cases mutexBusy with
  | nil | cons => cases isPause

theorem command_loopStack (begun : sd.loopStack ≠ []) (command : FileCommand) :
    (sd.command command).loopStack ≠ [] := by
  cases command with
  | other => exact begun
  | loopBegin count =>
    rw [VirtualSD.command, VirtualSD.loopBegin]
    split
    · exact begun
    · exact append_ne_nil_of_left_ne_nil begun _
  | loopEnd =>
    rw [VirtualSD.command, VirtualSD.loopEnd]
    split
    · exact begun
    split
    · exact begun
    split_ifs
    · exact append_ne_nil_of_left_ne_nil begun _
    · exact begun
    · exact append_ne_nil_of_left_ne_nil begun _

theorem resumePaused_loopStack : (resumePaused sd).loopStack = sd.loopStack := by
  rw [resumePaused, VirtualSD.doResume]
  cases sd.workTimer <;> split_ifs <;> rfl

theorem requested_loopStack : driven.requested.loopStack = driven.1.loopStack := by
  rw [Driven.requested, VirtualSD.beginPause]
  split_ifs <;> rfl

theorem drive_loopStack (begun : driven.1.loopStack ≠ []) :
    (drive commands driven).1.loopStack ≠ [] := by
  rw [drive]
  split
  · rwa [resumePaused_loopStack]
  · rw [← requested_loopStack] at begun
    rw [handlerStep]
    split
    · exact begun
    · rwa [startWork_frame.1]
    · rwa [loopRound_loopStack]
    · rwa [loopRound_loopStack]
    · rw [VirtualSD.endLine, (lineDone_frame _ _).1]
      exact command_loopStack begun _

/-! ## The first loop -/

theorem drive_executed (commands : Line → FileCommand) (driven : Driven) :
    (drive commands driven).1.executed = driven.1.executed ∨
      ∃ locals line nextFilePosition,
        (drive commands driven).1.executed = driven.1.executed ++ [line] ∧
        (drive commands driven).1.handler = .inLine locals line nextFilePosition := by
  rw [drive]
  split
  · left
    rw [resumePaused, VirtualSD.doResume]
    cases driven.1.workTimer <;> split_ifs <;> rfl
  have executed_eq : driven.requested.executed = driven.1.executed := by
    rw [Driven.requested, VirtualSD.beginPause]
    split_ifs <;> rfl
  rw [handlerStep, ← executed_eq]
  split
  · exact .inl rfl
  · exact .inl startWork_frame.2
  · exact loopRound_executed _ _
  · exact loopRound_executed _ _
  next line _ _ =>
    rcases command_eq driven.requested (commands line) with ⟨_, _, same⟩
    rw [VirtualSD.endLine, (lineDone_frame _ _).2, same]
    exact .inl rfl

structure BeforeLoops (commands : Line → FileCommand) (content : List UInt8) (sd : VirtualSD) :
    Prop where
  sound : Sound content sd
  begins : ∀ line ∈ sd.executed, ∀ count, commands line = .loopBegin count →
    ∃ locals nextFilePosition, sd.handler = .inLine locals line nextFilePosition

theorem Sound.loopBegin {locals : Locals} {line : Line} {nextFilePosition count : ℕ}
    (sound : Sound content driven.1)
    (isInLine : driven.1.handler = .inLine locals line nextFilePosition)
    (isBegin : commands line = .loopBegin count) : (drive commands driven).1.loopStack ≠ [] := by
  rw [Sound, isInLine] at sound
  have fromSd : driven.requested.cmdFromSd := by
    rw [Driven.requested, VirtualSD.beginPause]
    split_ifs <;> exact sound.2.2.1
  rw [drive, if_neg (by simp [isInLine]), handlerStep, requested_handler, isInLine]
  dsimp only
  rw [VirtualSD.endLine, (lineDone_frame _ _).1, isBegin]
  simp [VirtualSD.command, VirtualSD.loopBegin, fromSd]

theorem BeforeLoops.drives (before : BeforeLoops commands content driven.1)
    (pausesWell : PausesWell driven) : (drive commands driven).1.loopStack ≠ [] ∨
      BeforeLoops commands content (drive commands driven).1 := by
  by_cases noBegin : BeginsNoLoop commands driven.1
  · right
    by_cases completed : Completed content driven.1
    · have unchanged : drive commands driven = driven := completed.iterate 1
      rwa [unchanged]
    have noneBegins : ∀ line ∈ driven.1.executed, ∀ count, commands line ≠ .loopBegin count := by
      intro line member count isBegin
      rcases before.begins line member count isBegin with ⟨_, _, isInLine⟩
      exact noBegin _ _ _ isInLine count isBegin
    refine ⟨(before.sound.drives noBegin pausesWell completed).1, ?_⟩
    intro line member count isBegin
    rcases drive_executed commands driven with
      unchanged | ⟨locals, running, nextFilePosition, executed_eq, isInLine⟩
    · rw [unchanged] at member
      exact absurd isBegin (noneBegins line member count)
    rw [executed_eq] at member
    rcases mem_append.mp member with earlier | isRunning
    · exact absurd isBegin (noneBegins line earlier count)
    · rw [mem_singleton.mp isRunning]
      exact ⟨_, _, isInLine⟩
  · left
    rw [BeginsNoLoop] at noBegin
    push Not at noBegin
    rcases noBegin with ⟨_, _, _, isInLine, _, isBegin⟩
    exact before.sound.loopBegin isInLine isBegin

theorem BeforeLoops.iterate (driven : Driven) (isUnpaused : driven.2 = unpaused mutexBusy)
    (before : driven.1.loopStack ≠ [] ∨ BeforeLoops commands content driven.1) (steps : ℕ) :
    ((drive commands)^[steps] driven).1.loopStack ≠ [] ∨
      BeforeLoops commands content ((drive commands)^[steps] driven).1 := by
  induction steps generalizing driven mutexBusy with
  | zero => exact before
  | succ steps induction =>
    rcases unpaused_drive commands isUnpaused with ⟨later, isLater⟩
    apply induction _ isLater
    rcases before with begun | before
    · exact .inl (drive_loopStack begun)
    · exact before.drives (pausesWell_of_unpaused isUnpaused)

/-- A print that ends without a loop on the stack has executed no line that begins one. -/
theorem PrintsUnrolled.noLoopBegins
    (prints : PrintsUnrolled commands unrolled ((drive commands)^[steps] (startPrint content,
      unpaused mutexBusy)).1) : NoLoopBegins commands content := by
  rcases prints with ⟨isIdle, notPaused, _, noLoop⟩
  rcases BeforeLoops.iterate (startPrint content, unpaused mutexBusy) rfl
    (.inr ⟨sound_startPrint content, nofun⟩) steps with begun | before
  · exact absurd noLoop begun
  have sound := before.sound
  rw [Sound, isIdle] at sound
  rcases sound with ⟨completed, _⟩ | ⟨_, _, isPaused⟩
  · intro line member count isBegin
    rw [← completed.2.2] at member
    rcases before.begins line member count isBegin with ⟨_, _, isInLine⟩
    rw [isIdle] at isInLine
    cases isInLine
  · rw [isPaused] at notPaused
    exact absurd rfl notPaused

/-- A file with properly nested loops is printed unrolled, with an empty loop stack at the
end, exactly if it has no loop. -/
theorem sdcard_loops_unroll_iff (commands : Line → FileCommand) (content : List UInt8)
    (mutexBusy : List Bool) (unrolled : List Line)
    (unrolls : Unrolls commands (terminatedLines newline content) unrolled) :
    (∃ steps, PrintsUnrolled commands unrolled
        ((drive commands)^[steps] (startPrint content, unpaused mutexBusy)).1) ↔
      NoLoopBegins commands content := by
  constructor
  · rintro ⟨steps, prints⟩
    exact prints.noLoopBegins
  intro noLoop
  have pausesWell : ∀ steps, PausesWell ((drive commands)^[steps]
      (startPrint content, unpaused mutexBusy)) := by
    intro steps
    rcases unpaused_iterate commands (startPrint content, unpaused mutexBusy) rfl steps with
      ⟨later, isLater⟩
    exact pausesWell_of_unpaused isLater
  rcases Sound.completes noLoop (sound_startPrint content) pausesWell with
    ⟨steps, ⟨isIdle, isComplete, executed_eq⟩, stack_eq⟩
  refine ⟨steps, isIdle, ?_, ?_, stack_eq⟩
  · rw [isComplete]
    decide
  · rw [executed_eq]
    exact unrolls.of_noBegin noLoop

def loopCommands (line : Line) : FileCommand :=
  if line = [66] then .loopBegin 2 else if line = [69] then .loopEnd else .other

/-- A file of one line is printed; one with two nested loops around that line is not printed
unrolled. -/
theorem sdcard_loops_unroll_iff_nested :
    (∃ steps, PrintsUnrolled loopCommands [[88]]
      ((drive loopCommands)^[steps] (startPrint [88, 10], unpaused [true])).1) ∧
    Unrolls loopCommands (terminatedLines newline [66, 10, 66, 10, 88, 10, 69, 10, 69, 10])
      [[88], [88], [88], [88]] ∧
    ¬ ∃ steps, PrintsUnrolled loopCommands [[88], [88], [88], [88]] ((drive loopCommands)^[steps]
      (startPrint [66, 10, 66, 10, 88, 10, 69, 10, 69, 10], unpaused [true])).1 := by
  have isBegin : loopCommands [66] = .loopBegin 2 := rfl
  have line : Unrolls loopCommands [[88]] [[88]] := .other rfl .nil
  have inner : Unrolls loopCommands [[66], [88], [69]] [[88], [88]] :=
    .loop isBegin (by decide) line rfl .nil
  have outer : Unrolls loopCommands
      (terminatedLines newline [66, 10, 66, 10, 88, 10, 69, 10, 69, 10])
      [[88], [88], [88], [88]] :=
    .loop isBegin (by decide) inner rfl .nil
  refine ⟨(sdcard_loops_unroll_iff loopCommands [88, 10] [true] _ line).mpr ?_, outer, ?_⟩
  · intro read isRead
    rw [show terminatedLines newline [88, 10] = [[88]] from rfl, List.mem_singleton] at isRead
    rw [isRead]
    nofun
  · rw [sdcard_loops_unroll_iff loopCommands _ [true] _ outer]
    exact fun noLoop => noLoop [66] (by decide +kernel) 2 rfl

/-- A loop around one line, which is to be executed twice. -/
theorem sdcard_loop_not_unrolled :
    Unrolls loopCommands (terminatedLines newline [66, 10, 88, 10, 69, 10]) [[88], [88]] ∧
      ¬ ∃ steps, PrintsUnrolled loopCommands [[88], [88]]
        ((drive loopCommands)^[steps] (startPrint [66, 10, 88, 10, 69, 10], unpaused [])).1 := by
  constructor
  · have isBegin : loopCommands [66] = .loopBegin 2 := rfl
    have body : Unrolls loopCommands [[88]] [[88]] := .other rfl .nil
    exact .loop isBegin (by decide) body rfl .nil
  · rintro ⟨steps, prints⟩
    exact prints.noLoopBegins [66] (by decide +kernel) 2 rfl

end CentauriCarbon.VirtualSd
