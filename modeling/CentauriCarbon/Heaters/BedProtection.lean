import CentauriCarbon.Heaters.IdleTimeout
import Mathlib.Data.List.Chain
import Mathlib.Tactic.Linarith
import Mathlib.Tactic.Ring

/-! # Protection of an idle bed

`heater_bed_idle_timer` switches an idle bed off in time as long as it is armed. After that it is
at `_NEVER`, and only a print state or a new timeout arms it again: a bed that is heated once more
stays on.
-/

namespace CentauriCarbon.Heaters

namespace IdleTimeout

variable {config : IdleConfig} {idle next : IdleTimeout}

structure LeavesBed (before after : IdleTimeout) : Prop where
  now_eq : after.now = before.now
  printState_eq : after.printState = before.printState
  timeout_eq : after.heaterBedIdleTimeout = before.heaterBedIdleTimeout
  idleTimer_eq : after.heaterBedIdleTimer = before.heaterBedIdleTimer
  activeTimer_eq : after.heaterBedActiveTimer = before.heaterBedActiveTimer
  bedTarget_eq : after.bedTarget = before.bedTarget
  printTime_le : before.toolhead.printTime ≤ after.toolhead.printTime

namespace LeavesBed

theorem refl (idle : IdleTimeout) : LeavesBed idle idle := ⟨rfl, rfl, rfl, rfl, rfl, rfl, le_rfl⟩

theorem trans (first : LeavesBed before middle) (second : LeavesBed middle after) :
    LeavesBed before after where
  now_eq := second.now_eq.trans first.now_eq
  printState_eq := second.printState_eq.trans first.printState_eq
  timeout_eq := second.timeout_eq.trans first.timeout_eq
  idleTimer_eq := second.idleTimer_eq.trans first.idleTimer_eq
  activeTimer_eq := second.activeTimer_eq.trans first.activeTimer_eq
  bedTarget_eq := second.bedTarget_eq.trans first.bedTarget_eq
  printTime_le := first.printTime_le.trans second.printTime_le

end LeavesBed

variable (config idle)

theorem leavesBed_calcPrintTime : LeavesBed idle (idle.calcPrintTime config) := by
  rw [calcPrintTime]
  split
  next later =>
    rw [handleSyncPrintTime]
    split
    all_goals exact ⟨rfl, rfl, rfl, rfl, rfl, rfl, later.le⟩
  · exact .refl idle

theorem leavesBed_setQueuingState (queuingState : QueuingState) :
    LeavesBed idle { idle with toolhead := { idle.toolhead with queuingState } } :=
  ⟨rfl, rfl, rfl, rfl, rfl, rfl, le_rfl⟩

theorem leavesBed_getLastMoveTime : LeavesBed idle (idle.getLastMoveTime config) := by
  rw [getLastMoveTime]
  split
  · exact .refl idle
  · exact (leavesBed_setQueuingState idle _).trans (leavesBed_calcPrintTime config _)

theorem leavesBed_registerLookaheadCallback :
    LeavesBed idle (idle.registerLookaheadCallback config) := by
  rw [registerLookaheadCallback]
  split
  · exact leavesBed_getLastMoveTime config idle
  · exact .refl idle

theorem leavesBed_move (motion : Motion) : LeavesBed idle (idle.move config motion) := by
  cases motion with
  | addMove | flushStepGeneration => exact ⟨rfl, rfl, rfl, rfl, rfl, rfl, le_rfl⟩
  | processMoves nextMoveTime isLookaheadEmpty =>
    have advanced : ∀ idle : IdleTimeout, LeavesBed idle { idle with
        toolhead := { idle.toolhead with
          printTime := max idle.toolhead.printTime nextMoveTime, isLookaheadEmpty } } :=
      fun idle => ⟨rfl, rfl, rfl, rfl, rfl, rfl, le_max_left _ _⟩
    rw [IdleTimeout.move, processMoves]
    split
    · exact advanced idle
    · exact (leavesBed_calcPrintTime config idle).trans (advanced _)
    all_goals
      exact ((leavesBed_setQueuingState idle .main).trans (leavesBed_calcPrintTime config _)).trans
        (advanced _)
  | getLastMoveTime => exact leavesBed_getLastMoveTime config idle
  | advanceMoveTime => exact ⟨rfl, rfl, rfl, rfl, rfl, rfl, le_max_left _ _⟩
  | setQueuingState => exact leavesBed_setQueuingState idle _

/-! ## The timers -/

def SwitchesExtruderOff (config : IdleConfig) (surroundings : Surroundings)
    (idle : IdleTimeout) : Prop :=
  isDue idle.timeoutTimer idle.now = true ∧ idle.state = .ready ∧
    idle.toolhead.isLookaheadEmpty = true ∧ 1 ≤ idle.idleTime config idle.now ∧
    idle.extruderIdleTimeout ≤ idle.idleTime config idle.now ∧
    surroundings.isMutexHeld = false ∧ surroundings.isTemplateFailing = false

theorem leavesBed_setState (state : ActivityState) : LeavesBed idle { idle with state } :=
  ⟨rfl, rfl, rfl, rfl, rfl, rfl, le_rfl⟩

theorem leavesBed_setTimeoutTimer (timeoutTimer : Option ℚ) :
    LeavesBed idle { idle with timeoutTimer } :=
  ⟨rfl, rfl, rfl, rfl, rfl, rfl, le_rfl⟩

variable (surroundings : Surroundings) (eventtime : ℚ)

theorem transitionIdleState_cases :
    LeavesBed idle (idle.transitionIdleState config surroundings eventtime).1 ∧
      ((idle.transitionIdleState config surroundings eventtime).1.toolhead = idle.toolhead ∨
        surroundings.isTemplateFailing = false) := by
  rw [transitionIdleState]
  split
  · exact ⟨leavesBed_setState idle _, .inl rfl⟩
  next runs =>
    refine ⟨?_, .inr (Bool.eq_false_of_not_eq_true runs)⟩
    exact (((leavesBed_setState idle _).trans (leavesBed_registerLookaheadCallback config _)).trans
      (leavesBed_getLastMoveTime config _)).trans (leavesBed_setState _ _)

theorem checkIdleTimeout_cases :
    LeavesBed idle (idle.checkIdleTimeout config surroundings eventtime).1 ∧
      ((idle.checkIdleTimeout config surroundings eventtime).1.toolhead = idle.toolhead ∨
        idle.toolhead.isLookaheadEmpty = true ∧ 1 ≤ idle.idleTime config eventtime ∧
          idle.extruderIdleTimeout ≤ idle.idleTime config eventtime ∧
          surroundings.isMutexHeld = false ∧ surroundings.isTemplateFailing = false) := by
  rw [checkIdleTimeout]
  split_ifs with busy early held
  · exact ⟨.refl idle, .inl rfl⟩
  · exact ⟨.refl idle, .inl rfl⟩
  · exact ⟨.refl idle, .inl rfl⟩
  rw [not_or, not_lt, Bool.not_eq_true, Bool.not_eq_false'] at busy
  rcases idle.transitionIdleState_cases config surroundings eventtime with
    ⟨leaves, same | runs⟩
  · exact ⟨leaves, .inl same⟩
  · exact ⟨leaves, .inr ⟨busy.1, busy.2, not_lt.mp early, Bool.eq_false_of_not_eq_true held, runs⟩⟩

theorem timeoutHandler_cases :
    LeavesBed idle (idle.timeoutHandler config surroundings eventtime).1 ∧
      ((idle.timeoutHandler config surroundings eventtime).1.toolhead = idle.toolhead ∨
        idle.state = .ready ∧
          idle.toolhead.isLookaheadEmpty = true ∧ 1 ≤ idle.idleTime config eventtime ∧
          idle.extruderIdleTimeout ≤ idle.idleTime config eventtime ∧
          surroundings.isMutexHeld = false ∧ surroundings.isTemplateFailing = false) := by
  rw [timeoutHandler]
  split
  next isReady =>
    rcases idle.checkIdleTimeout_cases config surroundings eventtime with ⟨leaves, same | off⟩
    · exact ⟨leaves, .inl same⟩
    · exact ⟨leaves, .inr ⟨isReady, off⟩⟩
  · dsimp only
    split_ifs
    · exact ⟨.refl idle, .inl rfl⟩
    · exact ⟨.refl idle, .inl rfl⟩
    · exact ⟨.refl idle, .inl rfl⟩
    · exact ⟨leavesBed_setState idle _, .inl rfl⟩

/-- The timer of the extruder moves nothing unless it switches the extruder off. -/
theorem runTimeoutTimer_cases : LeavesBed idle (idle.runTimeoutTimer config surroundings) ∧
      ((idle.runTimeoutTimer config surroundings).toolhead = idle.toolhead ∨
        idle.SwitchesExtruderOff config surroundings) := by
  rw [runTimeoutTimer]
  split
  next due =>
    rcases timeoutHandler_cases config { idle with timeoutTimer := none } surroundings idle.now
      with ⟨leaves, outcome⟩
    refine ⟨((leavesBed_setTimeoutTimer idle none).trans leaves).trans
      (leavesBed_setTimeoutTimer _ _), ?_⟩
    rcases outcome with same | off
    · exact .inl same
    · exact .inr ⟨due, off⟩
  · exact ⟨.refl idle, .inl rfl⟩

theorem isDue_iff {eventtime : ℚ} :
    isDue timer eventtime ↔ ∃ waketime, timer = some waketime ∧ waketime ≤ eventtime := by
  cases timer with
  | none => simp [isDue]
  | some waketime => simp [isDue]

theorem add_sub_idleTime (timeout : ℚ) : idle.now + timeout - idle.idleTime config idle.now =
      config.reachedAt idle.toolhead.printTime + timeout := by
  rw [idleTime, IdleConfig.estimatedPrintTime, IdleConfig.reachedAt]
  ring

/-- The timer of the idle bed waits, looks again later, or switches the bed off and stops. -/
theorem runHeaterBedIdleTimer_cases :
    isDue idle.heaterBedIdleTimer idle.now = false ∧ idle.runHeaterBedIdleTimer config = idle ∨
      isDue idle.heaterBedIdleTimer idle.now = true ∧
        idle.idleTime config idle.now < idle.heaterBedIdleTimeout ∧
        idle.runHeaterBedIdleTimer config = { idle with
          heaterBedIdleTimer :=
            some (config.reachedAt idle.toolhead.printTime + idle.heaterBedIdleTimeout) } ∨
      isDue idle.heaterBedIdleTimer idle.now = true ∧
        idle.heaterBedIdleTimeout ≤ idle.idleTime config idle.now ∧
        ∃ moved : IdleTimeout, LeavesBed { idle with heaterBedIdleTimer := none } moved ∧
          idle.runHeaterBedIdleTimer config = { moved with
            bedTarget := 0
            heaterBedIdleTimer := none } := by
  rw [runHeaterBedIdleTimer]
  split
  next due =>
    refine .inr ?_
    rw [heaterBedIdleTimeoutHandler, heaterBedHandler]
    dsimp only
    split
    next early =>
      refine .inl ⟨due, early, ?_⟩
      exact congrArg (fun waketime => { idle with heaterBedIdleTimer := some waketime })
        (idle.add_sub_idleTime config _)
    next late =>
      refine .inr ⟨due, not_lt.mp late, _, leavesBed_registerLookaheadCallback config _, ?_⟩
      rw [setTemperature, if_neg (by simp)]
  next notDue => exact .inl ⟨Bool.eq_false_of_not_eq_true notDue, rfl⟩

/-- The timer of a print changes nothing but itself, the target and the toolhead. -/
theorem runHeaterBedActiveTimer_cases :
    isDue idle.heaterBedActiveTimer idle.now = false ∧ idle.runHeaterBedActiveTimer config = idle ∨
      isDue idle.heaterBedActiveTimer idle.now = true ∧
        ∃ (moved : IdleTimeout) (target : ℚ) (waketime : Option ℚ), LeavesBed idle { moved with
            bedTarget := idle.bedTarget
            heaterBedActiveTimer := idle.heaterBedActiveTimer } ∧
          idle.runHeaterBedActiveTimer config = { moved with
            bedTarget := target
            heaterBedActiveTimer := waketime } := by
  rw [runHeaterBedActiveTimer]
  split
  next due =>
    refine .inr ⟨due, ?_⟩
    rw [heaterBedActiveTimeoutHandler, heaterBedHandler]
    dsimp only
    split
    · exact ⟨idle, idle.bedTarget, _, .refl idle, rfl⟩
    · rcases leavesBed_registerLookaheadCallback config
        { idle with heaterBedActiveTimer := none } with ⟨now, print, timeout, timer, _, _, later⟩
      exact ⟨_, 0, none, ⟨now, print, timeout, timer, rfl, rfl, later⟩, rfl⟩
  next notDue => exact .inl ⟨Bool.eq_false_of_not_eq_true notDue, rfl⟩

/-! ## What holds in every run -/

variable {config idle}

def deadline (config : IdleConfig) (idle : IdleTimeout) : ℚ :=
  max idle.now (config.reachedAt idle.toolhead.printTime) + idle.heaterBedIdleTimeout

structure Watched (config : IdleConfig) (idle : IdleTimeout) : Prop where
  timer_le : ∀ waketime ∈ idle.heaterBedIdleTimer, waketime ≤ idle.deadline config
  isIdle_of_armed : idle.heaterBedIdleTimer.isSome → idle.printState.isIdle = true
  notActive_of_isIdle : idle.printState.isIdle = true → idle.heaterBedActiveTimer = none
  timeout_nonneg : 0 ≤ idle.heaterBedIdleTimeout

theorem LeavesBed.deadline_le (leaves : LeavesBed before after) :
    before.deadline config ≤ after.deadline config := by
  rw [deadline, deadline, leaves.now_eq, leaves.timeout_eq]
  have later : config.reachedAt before.toolhead.printTime ≤
      config.reachedAt after.toolhead.printTime :=
    sub_le_sub_right leaves.printTime_le _
  gcongr

theorem Watched.of_leavesBed (watched : Watched config idle) (leaves : LeavesBed idle next) :
    Watched config next := by
  refine ⟨?_, ?_, ?_, ?_⟩
  · rw [leaves.idleTimer_eq]
    exact fun waketime armed => (watched.timer_le waketime armed).trans leaves.deadline_le
  · rw [leaves.idleTimer_eq, leaves.printState_eq]
    exact watched.isIdle_of_armed
  · rw [leaves.printState_eq, leaves.activeTimer_eq]
    exact watched.notActive_of_isIdle
  · rw [leaves.timeout_eq]
    exact watched.timeout_nonneg

theorem Watched.later (watched : Watched config idle) (later : idle.now ≤ time) :
    Watched config { idle with now := time } := by
  refine ⟨fun waketime armed => (watched.timer_le waketime armed).trans ?_,
    watched.isIdle_of_armed, watched.notActive_of_isIdle, watched.timeout_nonneg⟩
  rw [deadline, deadline]
  gcongr

theorem watched_ready (config : IdleConfig) (now : ℚ) (toolhead : ToolHead) (bedTarget : ℚ) :
    Watched config (ready config now toolhead bedTarget) := by
  refine ⟨?_, fun _ => rfl, fun _ => rfl, config.heaterBedIdleTimeout_nonneg⟩
  rintro waketime ⟨⟩
  exact add_le_add_left (le_max_left _ _) _

variable (watched : Watched config idle)
include watched

theorem Watched.handlePrintState (printState : PrintState) :
    Watched config (idle.handlePrintState printState) := by
  rw [IdleTimeout.handlePrintState]
  split
  next isIdle =>
    refine ⟨?_, fun _ => isIdle, fun _ => rfl, watched.timeout_nonneg⟩
    rintro waketime ⟨⟩
    exact add_le_add_left (le_max_left _ _) _
  next notIdle =>
    refine ⟨?_, ?_, fun isIdle => absurd isIdle notIdle, watched.timeout_nonneg⟩
    · rintro waketime ⟨⟩
    · rintro ⟨⟩

theorem Watched.setTemperature (temp : ℚ) : Watched config (idle.setTemperature config temp) := by
  have registered := watched.of_leavesBed (leavesBed_registerLookaheadCallback config idle)
  rw [IdleTimeout.setTemperature]
  split
  · exact registered
  · exact { registered with }

theorem Watched.cmdSetHeaterBedIdleTimeout (timeout : ℚ) :
    Watched config (idle.cmdSetHeaterBedIdleTimeout timeout) := by
  rw [IdleTimeout.cmdSetHeaterBedIdleTimeout]
  split_ifs with refused isIdle
  · exact watched
  · refine ⟨?_, fun _ => isIdle, watched.notActive_of_isIdle, (not_le.mp refused).le⟩
    rintro waketime ⟨⟩
    exact add_le_add_left (le_max_left _ _) _
  have disarmed : idle.heaterBedIdleTimer = none :=
    Option.not_isSome_iff_eq_none.mp fun armed => isIdle (watched.isIdle_of_armed armed)
  refine ⟨?_, watched.isIdle_of_armed, watched.notActive_of_isIdle, (not_le.mp refused).le⟩
  intro waketime armed
  rw [disarmed] at armed
  cases armed

theorem Watched.runHeaterBedIdleTimer : Watched config (idle.runHeaterBedIdleTimer config) := by
  rcases idle.runHeaterBedIdleTimer_cases config with
    ⟨_, same⟩ | ⟨due, _, again⟩ | ⟨_, _, moved, leaves, fired⟩
  · rw [same]
    exact watched
  · rw [again]
    have armed : idle.heaterBedIdleTimer.isSome := by
      rcases isDue_iff.mp due with ⟨waketime, armed, _⟩
      rw [armed]
      rfl
    refine ⟨?_, fun _ => watched.isIdle_of_armed armed, watched.notActive_of_isIdle,
      watched.timeout_nonneg⟩
    rintro waketime ⟨⟩
    exact add_le_add_left (le_max_right _ _) _
  · rw [fired]
    refine ⟨?_, ?_, ?_, ?_⟩
    · rintro waketime ⟨⟩
    · rintro ⟨⟩
    · change moved.printState.isIdle = true → moved.heaterBedActiveTimer = none
      rw [leaves.printState_eq, leaves.activeTimer_eq]
      exact watched.notActive_of_isIdle
    · exact leaves.timeout_eq ▸ watched.timeout_nonneg

theorem Watched.runHeaterBedActiveTimer : Watched config (idle.runHeaterBedActiveTimer config) := by
  rcases idle.runHeaterBedActiveTimer_cases config with
    ⟨_, same⟩ | ⟨due, moved, target, waketime, leaves, ran⟩
  · rw [same]
    exact watched
  rw [ran]
  have kept := watched.of_leavesBed leaves
  refine ⟨kept.timer_le, kept.isIdle_of_armed, fun isIdle => ?_, kept.timeout_nonneg⟩
  have stopped : idle.heaterBedActiveTimer = none := kept.notActive_of_isIdle isIdle
  rw [stopped] at due
  cases due

theorem Watched.step (stepped : idle.step config event = some next) : Watched config next := by
  rcases Option.ite_none_right_eq_some.mp stepped with ⟨later, ⟨⟩⟩
  have now := watched.later later
  cases event.event with
  | printState printState => exact now.handlePrintState printState
  | motion motion => exact now.of_leavesBed (leavesBed_move config _ motion)
  | bedTemperature temp => exact now.setTemperature temp
  | setExtruderIdleTimeout timeout =>
    apply now.of_leavesBed
    dsimp only [IdleTimeout.handle, cmdSetExtruderIdleTimeout]
    split_ifs
    all_goals exact ⟨rfl, rfl, rfl, rfl, rfl, rfl, le_rfl⟩
  | setHeaterBedIdleTimeout timeout => exact now.cmdSetHeaterBedIdleTimeout timeout
  | checkTimers surroundings =>
    have ran := now.of_leavesBed (runTimeoutTimer_cases config _ surroundings).1
    exact ran.runHeaterBedIdleTimer.runHeaterBedActiveTimer

end IdleTimeout

/-! ## While nothing happens -/

structure Pass where
  time : ℚ
  surroundings : Surroundings

namespace IdleTimeout

variable {idle next : IdleTimeout} {pass : Pass}

def runPass (config : IdleConfig) (idle : IdleTimeout) (pass : Pass) : Option IdleTimeout :=
  idle.step config ⟨pass.time, .checkTimers pass.surroundings⟩

/-- The pass does not switch the extruder off, for which the toolhead would signal a new
`print_time`. -/
def Still (config : IdleConfig) (idle : IdleTimeout) (pass : Pass) : Prop :=
  ¬SwitchesExtruderOff config pass.surroundings { idle with now := pass.time }

instance decidableStill : Decidable (Still config idle pass) :=
  inferInstanceAs (Decidable (¬(_ ∧ _)))

theorem runPass_eq_some : idle.runPass config pass = some next ↔
      idle.now ≤ pass.time ∧
        { idle with now := pass.time }.checkTimers config pass.surroundings = next := by
  rw [runPass, step, Option.ite_none_right_eq_some, Option.some.injEq]
  rfl

theorem runHeaterBedIdleTimer_of_none (disarmed : idle.heaterBedIdleTimer = none) :
    idle.runHeaterBedIdleTimer config = idle := by
  rw [runHeaterBedIdleTimer, disarmed]
  rfl

theorem runHeaterBedActiveTimer_of_none (disarmed : idle.heaterBedActiveTimer = none) :
    idle.runHeaterBedActiveTimer config = idle := by
  rw [runHeaterBedActiveTimer, disarmed]
  rfl

theorem heaterBedActiveTimer_runHeaterBedIdleTimer (config : IdleConfig) (idle : IdleTimeout) :
    (idle.runHeaterBedIdleTimer config).heaterBedActiveTimer = idle.heaterBedActiveTimer := by
  rcases idle.runHeaterBedIdleTimer_cases config with
    ⟨_, waits⟩ | ⟨_, _, again⟩ | ⟨_, _, moved, leaves, fired⟩
  · rw [waits]
  · rw [again]
  · rw [fired]
    exact leaves.activeTimer_eq

theorem leavesBed_runPass (disarmed : idle.heaterBedIdleTimer = none)
    (stopped : idle.heaterBedActiveTimer = none) (stepped : idle.runPass config pass = some next) :
    LeavesBed { idle with now := pass.time } next := by
  rcases runPass_eq_some.mp stepped with ⟨_, rfl⟩
  have leaves := (runTimeoutTimer_cases config { idle with now := pass.time } pass.surroundings).1
  rw [checkTimers, runHeaterBedIdleTimer_of_none (leaves.idleTimer_eq.trans disarmed),
    runHeaterBedActiveTimer_of_none (leaves.activeTimer_eq.trans stopped)]
  exact leaves

structure Disarmed (bedTarget : ℚ) (idle : IdleTimeout) : Prop where
  idleTimer_eq : idle.heaterBedIdleTimer = none
  activeTimer_eq : idle.heaterBedActiveTimer = none
  bedTarget_eq : idle.bedTarget = bedTarget

theorem Disarmed.run {bedTarget : ℚ} (disarmed : Disarmed bedTarget idle)
    (ran : runEvents (runPass config) idle passes = some final) : Disarmed bedTarget final := by
  refine runEvents_invariant (fun state pass next disarmed stepped => ?_) disarmed ran
  have leaves := leavesBed_runPass disarmed.idleTimer_eq disarmed.activeTimer_eq stepped
  exact ⟨leaves.idleTimer_eq.trans disarmed.idleTimer_eq,
    leaves.activeTimer_eq.trans disarmed.activeTimer_eq,
    leaves.bedTarget_eq.trans disarmed.bedTarget_eq⟩

structure Pending (config : IdleConfig) (bound : ℚ) (idle : IdleTimeout) : Prop where
  watched : Watched config idle
  armed : idle.heaterBedIdleTimer.isSome
  timer_le : ∀ waketime ∈ idle.heaterBedIdleTimer, waketime ≤ bound
  reached_le : config.reachedAt idle.toolhead.printTime + idle.heaterBedIdleTimeout ≤ bound

theorem Pending.runPass (pending : Pending config bound idle) (still : Still config idle pass)
    (stepped : idle.runPass config pass = some next) : next.now = pass.time ∧
      (next.bedTarget = 0 ∨ pass.time < bound ∧ Pending config bound next) := by
  have watched : Watched config next := pending.watched.step stepped
  rcases runPass_eq_some.mp stepped with ⟨_, rfl⟩
  rcases runTimeoutTimer_cases config { idle with now := pass.time } pass.surroundings with
    ⟨leaves, outcome⟩
  have same := outcome.resolve_right still
  have isIdle := pending.watched.isIdle_of_armed pending.armed
  have stopped := leaves.activeTimer_eq.trans (pending.watched.notActive_of_isIdle isIdle)
  have reached := pending.reached_le
  rw [checkTimers, runHeaterBedActiveTimer_of_none
    ((heaterBedActiveTimer_runHeaterBedIdleTimer config _).trans stopped)] at watched ⊢
  generalize runTimeoutTimer config { idle with now := pass.time } pass.surroundings = ran
    at leaves same watched ⊢
  have now : ran.now = pass.time := leaves.now_eq
  have timer : ran.heaterBedIdleTimer = idle.heaterBedIdleTimer := leaves.idleTimer_eq
  have timeout : ran.heaterBedIdleTimeout = idle.heaterBedIdleTimeout := leaves.timeout_eq
  rw [← same, ← timeout] at reached
  rcases ran.runHeaterBedIdleTimer_cases config with
    ⟨notDue, waits⟩ | ⟨due, early, again⟩ | ⟨due, late, moved, after, fired⟩
  · rw [waits] at watched ⊢
    refine ⟨now, .inr ⟨?_, watched, timer ▸ pending.armed, timer ▸ pending.timer_le, reached⟩⟩
    rcases Option.isSome_iff_exists.mp pending.armed with ⟨waketime, armed⟩
    rw [timer, now, armed] at notDue
    exact (not_le.mp (of_decide_eq_false notDue)).trans_le (pending.timer_le waketime armed)
  · rw [again] at watched ⊢
    refine ⟨now, .inr ⟨?_, watched, rfl, ?_, reached⟩⟩
    · rw [now, idleTime, IdleConfig.estimatedPrintTime] at early
      rw [IdleConfig.reachedAt] at reached
      linarith
    · rintro waketime ⟨⟩
      exact reached
  · rw [fired]
    exact ⟨after.now_eq.trans now, .inl rfl⟩

theorem Pending.run (pending : Pending config bound idle) (before : idle.now ≤ bound)
    (still : RunMeets (IdleTimeout.runPass config) (Still config) idle passes)
    (close : (idle.now :: passes.map Pass.time).IsChain fun earlier later =>
      earlier ≤ later ∧ later - earlier ≤ period) (long : ∃ pass ∈ passes, bound ≤ pass.time) :
    ∃ done reached, done <+: passes ∧
      runEvents (IdleTimeout.runPass config) idle done = some reached ∧
      reached.now ≤ bound + period ∧ reached.bedTarget = 0 := by
  induction passes generalizing idle with
  | nil =>
    rcases long with ⟨_, member, _⟩
    cases member
  | cons pass passes induction =>
    rw [List.map_cons, List.isChain_cons_cons] at close
    rcases close with ⟨⟨later, gap⟩, close⟩
    have stepped : idle.runPass config pass = some _ := runPass_eq_some.mpr ⟨later, rfl⟩
    rcases pending.runPass still.1 stepped with ⟨now, off | ⟨early, next⟩⟩
    · refine ⟨[pass], _, ⟨passes, rfl⟩, runEvents_cons_eq_some.mpr ⟨_, stepped, rfl⟩, ?_, off⟩
      linarith
    have rest := still.2
    rw [stepped] at rest
    rw [← now] at close early
    rcases long with ⟨last, member, beyond⟩
    rcases List.mem_cons.mp member with rfl | member
    · rw [now] at early
      exact absurd early (not_lt_of_ge beyond)
    rcases induction next early.le rest close ⟨last, member, beyond⟩ with
      ⟨done, reached, isPrefix, ran, ends⟩
    exact ⟨pass :: done, reached, List.cons_prefix_cons.mpr ⟨rfl, isPrefix⟩,
      runEvents_cons_eq_some.mpr ⟨_, stepped, ran⟩, ends⟩

end IdleTimeout

/-- In an idle print state, with the bed heated and nothing else going on, the bed is switched off
at most one `period` of the passes after `heater_bed_idle_timeout` if and only if the timer is armed
at the start. The time runs from the last event, or from the end of its motion. -/
theorem bed_switched_off_iff (config : IdleConfig) {start bedTarget : ℚ} {toolhead : ToolHead}
    {events : List TimedEvent} {idle : IdleTimeout}
    (ran : runEvents (IdleTimeout.step config) (.ready config start toolhead bedTarget) events =
      some idle)
    (isIdle : idle.printState.isIdle = true) (heated : 0 < idle.bedTarget) {period : ℚ}
    {quiet : List Pass}
    (still : RunMeets (IdleTimeout.runPass config) (IdleTimeout.Still config) idle quiet)
    (close : (idle.now :: quiet.map Pass.time).IsChain fun earlier later =>
      earlier ≤ later ∧ later - earlier ≤ period)
    (long : ∃ pass ∈ quiet, idle.deadline config ≤ pass.time) :
    (∃ done reached, done <+: quiet ∧
      runEvents (IdleTimeout.runPass config) idle done = some reached ∧
      reached.now ≤ idle.deadline config + period ∧ reached.bedTarget = 0) ↔
    idle.heaterBedIdleTimer.isSome := by
  have watched : idle.Watched config :=
    runEvents_invariant (fun _ _ _ watched stepped => watched.step stepped)
      (IdleTimeout.watched_ready config start toolhead bedTarget) ran
  constructor
  · rintro ⟨done, reached, _, ran, _, off⟩
    by_contra notArmed
    have disarmed : idle.Disarmed idle.bedTarget :=
      ⟨Option.not_isSome_iff_eq_none.mp notArmed, watched.notActive_of_isIdle isIdle, rfl⟩
    have kept := (disarmed.run ran).bedTarget_eq
    rw [off] at kept
    exact heated.ne kept
  · intro armed
    refine IdleTimeout.Pending.run ⟨watched, armed, watched.timer_le, ?_⟩ ?_ still close long
    · exact add_le_add_left (le_max_right _ _) _
    · exact le_add_of_le_of_nonneg (le_max_left _ _) watched.timeout_nonneg

def defaultConfig : IdleConfig where
  extruderIdleTimeout := 600
  heaterBedIdleTimeout := 600
  bedMinTemp := 0
  bedMaxTemp := 120
  kinFlushDelay := 1 / 1000
  printTimeOffset := 0
  heaterBedIdleTimeout_nonneg := by decide +kernel

def undisturbed : Surroundings := ⟨false, false⟩

/-- A bed that is heated 10 seconds after the start, with a pass over the timers every second, is
off after 611 seconds, if the extruder may stay on for longer. -/
theorem heated_bed_switched_off :
    let config := { defaultConfig with extruderIdleTimeout := 900 }
    let idle := { IdleTimeout.ready config 0 ⟨0, 0, .needPrime, true⟩ 0 with
      now := 10 }.setTemperature config 60
    let quiet := (List.range' 11 601).map fun time : ℕ => (⟨time, undisturbed⟩ : Pass)
    ∃ done reached, done <+: quiet ∧
      runEvents (IdleTimeout.runPass config) idle done = some reached ∧
      reached.now ≤ idle.deadline config + 1 ∧ reached.bedTarget = 0 := by
  intro config idle quiet
  have ran : runEvents (IdleTimeout.step config) (.ready config 0 ⟨0, 0, .needPrime, true⟩ 0)
      [⟨10, .bedTemperature 60⟩] = some idle :=
    runEvents_cons_eq_some.mpr ⟨idle, if_pos (by decide +kernel), rfl⟩
  have still : RunMeets (IdleTimeout.runPass config) (IdleTimeout.Still config) idle quiet := by
    decide +kernel
  refine (bed_switched_off_iff config ran (by decide +kernel) (by decide +kernel) still
    (by decide +kernel) ⟨⟨611, undisturbed⟩, ?_, by decide +kernel⟩).mpr (by decide +kernel)
  exact List.mem_map.mpr ⟨611, List.mem_range'_1.mpr (by decide), rfl⟩

/-- The timer fires after 600 seconds, for a bed that is off; one that is heated after that is
never switched off. -/
theorem bed_heated_again_stays_on :
    ∃ idle, runEvents (IdleTimeout.step defaultConfig)
        (.ready defaultConfig 0 ⟨0, 0, .needPrime, true⟩ 0)
        [⟨600, .checkTimers undisturbed⟩, ⟨700, .bedTemperature 60⟩] = some idle ∧
      idle.printState.isIdle = true ∧ idle.bedTarget = 60 ∧
      ∀ passes final, runEvents (IdleTimeout.runPass defaultConfig) idle passes = some final →
        final.bedTarget = 60 := by
  refine ⟨_, runEvents_cons_eq_some.mpr ⟨_, if_pos (by decide +kernel),
    runEvents_cons_eq_some.mpr ⟨_, if_pos (by decide +kernel), rfl⟩⟩, by decide +kernel,
    by decide +kernel, fun passes final ran => ?_⟩
  refine (IdleTimeout.Disarmed.run ⟨?_, ?_, ?_⟩ ran).bedTarget_eq
  all_goals decide +kernel

end CentauriCarbon.Heaters
