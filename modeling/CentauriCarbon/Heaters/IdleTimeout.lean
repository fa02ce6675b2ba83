import CentauriCarbon.Foundation.EventRun
import Mathlib.Algebra.Order.Ring.Rat

/-! # Idle timeouts

`IdleTimeout` switches the heaters off when the printer has been idle for some time. One timer
watches the extruder, and two the bed: one while nothing is printed, one while a print goes on. It
takes the time of the last move from the toolhead, of which the part is modelled that sets
`print_time`. The printer is not shut down. Numbers are read as rationals, and the clock of the
micro-controller runs as fast as that of the host.
-/

namespace CentauriCarbon.Heaters

inductive PrintState where
  | standby
  | printing
  | paused
  | error
  | complete
  | cancelled

def PrintState.isIdle : PrintState → Bool
  | .standby | .error | .complete | .cancelled => true
  | .printing | .paused => false

inductive ActivityState where
  | idle
  | printing
  | ready
  deriving DecidableEq

/-- `special_queuing_state`; `main` is the empty string. -/
inductive QueuingState where
  | main
  | needPrime
  | priming
  | drip
  deriving DecidableEq

structure ToolHead where
  printTime : ℚ
  minRestartTime : ℚ
  queuingState : QueuingState
  isLookaheadEmpty : Bool

/-- The options that are read, and the difference between the clocks of the micro-controller and
the host. -/
structure IdleConfig where
  extruderIdleTimeout : ℚ
  heaterBedIdleTimeout : ℚ
  bedMinTemp : ℚ
  bedMaxTemp : ℚ
  kinFlushDelay : ℚ
  printTimeOffset : ℚ
  heaterBedIdleTimeout_nonneg : 0 ≤ heaterBedIdleTimeout

namespace IdleConfig

variable (config : IdleConfig)

def estimatedPrintTime (eventtime : ℚ) : ℚ := eventtime + config.printTimeOffset

def reachedAt (printTime : ℚ) : ℚ := printTime - config.printTimeOffset

end IdleConfig

def readyTimeout : ℚ := 500 / 1000
def minKinTime : ℚ := 100 / 1000
def bufferTimeStart : ℚ := 250 / 1000

structure IdleTimeout where
  /-- `get_monotonic` -/
  now : ℚ
  state : ActivityState
  printState : PrintState
  extruderIdleTimeout : ℚ
  heaterBedIdleTimeout : ℚ
  lastPrintStartSystime : ℚ
  timeoutTimer : Option ℚ
  heaterBedIdleTimer : Option ℚ
  heaterBedActiveTimer : Option ℚ
  toolhead : ToolHead
  bedTarget : ℚ

def heaterBedActiveTimeout : ℚ := 259200

/-- What a pass over the timers finds: whether some command holds the G-code mutex, and whether the
template `extruder_timeout_gcode` fails. -/
structure Surroundings where
  isMutexHeld : Bool
  isTemplateFailing : Bool

namespace IdleTimeout

variable (config : IdleConfig) (idle : IdleTimeout)

def ready (now : ℚ) (toolhead : ToolHead) (bedTarget : ℚ) : IdleTimeout where
  now
  state := .idle
  printState := .standby
  extruderIdleTimeout := config.extruderIdleTimeout
  heaterBedIdleTimeout := config.heaterBedIdleTimeout
  lastPrintStartSystime := 0
  timeoutTimer := none
  heaterBedIdleTimer := some (now + config.heaterBedIdleTimeout)
  heaterBedActiveTimer := none
  toolhead
  bedTarget

def handlePrintState (printState : PrintState) : IdleTimeout :=
  if printState.isIdle then
    { idle with
      printState
      heaterBedIdleTimer := some (idle.now + idle.heaterBedIdleTimeout)
      heaterBedActiveTimer := none }
  else
    { idle with
      printState
      heaterBedIdleTimer := none
      heaterBedActiveTimer := some (idle.now + heaterBedActiveTimeout) }

def handleSyncPrintTime (curtime printTime estPrintTime : ℚ) : IdleTimeout :=
  if idle.state = .printing then idle
  else
    { idle with
      state := .printing
      lastPrintStartSystime := curtime
      timeoutTimer := some (curtime + (readyTimeout + printTime - estPrintTime)) }

/-- `_calc_print_time`. Its signal passes the estimated print time first, where the handler takes
the print time. -/
def calcPrintTime : IdleTimeout :=
  let estPrintTime := config.estimatedPrintTime idle.now
  let kinTime := max (estPrintTime + minKinTime) idle.toolhead.minRestartTime + config.kinFlushDelay
  let minPrintTime := max (estPrintTime + bufferTimeStart) kinTime
  if idle.toolhead.printTime < minPrintTime then
    { idle with toolhead := { idle.toolhead with printTime := minPrintTime } }.handleSyncPrintTime
      idle.now estPrintTime minPrintTime
  else idle

/-- `get_last_move_time` where no move is in the look-ahead queue. -/
def getLastMoveTime : IdleTimeout :=
  if idle.toolhead.queuingState = .main then idle
  else
    { idle with toolhead := { idle.toolhead with queuingState := .needPrime } }.calcPrintTime config

/-- `register_lookahead_callback`, for a callback that does nothing here. -/
def registerLookaheadCallback : IdleTimeout :=
  if idle.toolhead.isLookaheadEmpty then idle.getLastMoveTime config else idle

def processMoves (nextMoveTime : ℚ) (isLookaheadEmpty : Bool) : IdleTimeout :=
  let idle := match idle.toolhead.queuingState with
    | .main => idle
    | .drip => idle.calcPrintTime config
    | .needPrime | .priming =>
      { idle with toolhead := { idle.toolhead with queuingState := .main } }.calcPrintTime config
  { idle with
    toolhead := { idle.toolhead with
      printTime := max idle.toolhead.printTime nextMoveTime, isLookaheadEmpty } }

/-- `PrinterHeaters::set_temperature` of the bed, without waiting. A target out of range is
refused, but only after the toolhead was asked. -/
def setTemperature (temp : ℚ) : IdleTimeout :=
  let idle := idle.registerLookaheadCallback config
  if temp ≠ 0 ∧ (temp < config.bedMinTemp ∨ config.bedMaxTemp < temp) then idle
  else { idle with bedTarget := temp }

def cmdSetExtruderIdleTimeout (timeout : ℚ) : IdleTimeout :=
  if timeout ≤ 0 then idle
  else if idle.state = .ready then
    { idle with extruderIdleTimeout := timeout, timeoutTimer := some (idle.now + timeout) }
  else { idle with extruderIdleTimeout := timeout }

def cmdSetHeaterBedIdleTimeout (timeout : ℚ) : IdleTimeout :=
  if timeout ≤ 0 then idle
  else if idle.printState.isIdle then
    { idle with heaterBedIdleTimeout := timeout, heaterBedIdleTimer := some (idle.now + timeout) }
  else { idle with heaterBedIdleTimeout := timeout }

/-! ## Timers

The handlers return the time at which they are called again. -/

variable (surroundings : Surroundings) (eventtime : ℚ)

def idleTime : ℚ := config.estimatedPrintTime eventtime - idle.toolhead.printTime

/-- `transition_idle_state`; the template is the default `M104 S0`. -/
def transitionIdleState : IdleTimeout × Option ℚ :=
  if surroundings.isTemplateFailing then ({ idle with state := .ready }, some (eventtime + 1))
  else
    let idle := { idle with state := .printing }.registerLookaheadCallback config
    ({ idle.getLastMoveTime config with state := .idle }, none)

def checkIdleTimeout : IdleTimeout × Option ℚ :=
  let idleTime := idle.idleTime config eventtime
  if !idle.toolhead.isLookaheadEmpty ∨ idleTime < 1 then
    (idle, some (eventtime + idle.extruderIdleTimeout))
  else if idleTime < idle.extruderIdleTimeout then
    (idle, some (eventtime + idle.extruderIdleTimeout - idleTime))
  else if surroundings.isMutexHeld then (idle, some (eventtime + 1))
  else idle.transitionIdleState config surroundings eventtime

def timeoutHandler : IdleTimeout × Option ℚ :=
  if idle.state = .ready then idle.checkIdleTimeout config surroundings eventtime
  else
    let bufferTime := min 2 (-idle.idleTime config eventtime)
    if !idle.toolhead.isLookaheadEmpty then
      (idle, some (eventtime + readyTimeout + max 0 bufferTime))
    else if -readyTimeout < bufferTime then (idle, some (eventtime + readyTimeout + bufferTime))
    else if surroundings.isMutexHeld then (idle, some (eventtime + readyTimeout))
    else ({ idle with state := .ready }, some (eventtime + idle.extruderIdleTimeout))

def heaterBedHandler (timeout eventtime : ℚ) : IdleTimeout × Option ℚ :=
  let idleTime := idle.idleTime config eventtime
  if idleTime < timeout then (idle, some (eventtime + timeout - idleTime))
  else (idle.setTemperature config 0, none)

def heaterBedIdleTimeoutHandler : IdleTimeout × Option ℚ :=
  idle.heaterBedHandler config idle.heaterBedIdleTimeout eventtime

def heaterBedActiveTimeoutHandler : IdleTimeout × Option ℚ :=
  idle.heaterBedHandler config heaterBedActiveTimeout eventtime

def isDue (timer : Option ℚ) (eventtime : ℚ) : Bool := timer.any (· ≤ eventtime)

def runTimeoutTimer : IdleTimeout :=
  if isDue idle.timeoutTimer idle.now then
    let (idle, waketime) :=
      { idle with timeoutTimer := none }.timeoutHandler config surroundings idle.now
    { idle with timeoutTimer := waketime }
  else idle

def runHeaterBedIdleTimer : IdleTimeout :=
  if isDue idle.heaterBedIdleTimer idle.now then
    let (idle, waketime) :=
      { idle with heaterBedIdleTimer := none }.heaterBedIdleTimeoutHandler config idle.now
    { idle with heaterBedIdleTimer := waketime }
  else idle

def runHeaterBedActiveTimer : IdleTimeout :=
  if isDue idle.heaterBedActiveTimer idle.now then
    let (idle, waketime) :=
      { idle with heaterBedActiveTimer := none }.heaterBedActiveTimeoutHandler config idle.now
    { idle with heaterBedActiveTimer := waketime }
  else idle

def checkTimers : IdleTimeout :=
  ((idle.runTimeoutTimer config surroundings).runHeaterBedIdleTimer config).runHeaterBedActiveTimer
    config

end IdleTimeout

inductive Motion where
  | addMove
  | processMoves (nextMoveTime : ℚ) (isLookaheadEmpty : Bool)
  | getLastMoveTime
  | advanceMoveTime (nextPrintTime : ℚ)
  | setQueuingState (queuingState : QueuingState)
  | flushStepGeneration

inductive IdleEvent where
  | printState (printState : PrintState)
  | motion (motion : Motion)
  | bedTemperature (temp : ℚ)
  | setExtruderIdleTimeout (timeout : ℚ)
  | setHeaterBedIdleTimeout (timeout : ℚ)
  | checkTimers (surroundings : Surroundings)

structure TimedEvent where
  time : ℚ
  event : IdleEvent

namespace IdleTimeout

variable (config : IdleConfig) (idle : IdleTimeout)

def move : Motion → IdleTimeout
  | .addMove => { idle with toolhead := { idle.toolhead with isLookaheadEmpty := false } }
  | .processMoves nextMoveTime isLookaheadEmpty =>
    idle.processMoves config nextMoveTime isLookaheadEmpty
  | .getLastMoveTime => idle.getLastMoveTime config
  | .advanceMoveTime nextPrintTime =>
    { idle with toolhead := { idle.toolhead with
      printTime := max idle.toolhead.printTime nextPrintTime } }
  | .setQueuingState queuingState =>
    { idle with toolhead := { idle.toolhead with queuingState } }
  | .flushStepGeneration =>
    { idle with toolhead := { idle.toolhead with
      minRestartTime := max idle.toolhead.minRestartTime idle.toolhead.printTime } }

def handle : IdleEvent → IdleTimeout
  | .printState printState => idle.handlePrintState printState
  | .motion motion => idle.move config motion
  | .bedTemperature temp => idle.setTemperature config temp
  | .setExtruderIdleTimeout timeout => idle.cmdSetExtruderIdleTimeout timeout
  | .setHeaterBedIdleTimeout timeout => idle.cmdSetHeaterBedIdleTimeout timeout
  | .checkTimers surroundings => idle.checkTimers config surroundings

def step (event : TimedEvent) : Option IdleTimeout :=
  if idle.now ≤ event.time then some ({ idle with now := event.time }.handle config event.event)
  else none

end IdleTimeout

end CentauriCarbon.Heaters
