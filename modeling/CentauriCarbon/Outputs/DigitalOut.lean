import CentauriCarbon.Foundation.EventRun
import CentauriCarbon.Scheduler.TimerOrder

/-! # Digital output pins

A pin is set at once by a command, or by settings that are queued for a time. A setting
turns the pin on or off, or toggles it as a software PWM. One timer serves both the toggling
and the loading of the next setting.
-/

namespace CentauriCarbon.Outputs

open Scheduler

inductive DigitalFunc where
  | unset
  | toggle
  | load
  deriving DecidableEq

structure DigitalMove where
  waketime : UInt32
  onDuration : UInt32

structure DigitalOut where
  waketime : UInt32
  func : DigitalFunc
  /-- Is the timer in the list of the scheduler? -/
  scheduled : Bool
  onDuration : UInt32
  offDuration : UInt32
  endTime : UInt32
  pin : Bool
  maxDuration : UInt32
  cycleTime : UInt32
  mq : List DigitalMove
  on : Bool
  toggling : Bool
  checkEnd : Bool
  defaultOn : Bool

inductive DigitalShutdown where
  | missedScheduling
  | exceedsMaxDuration
  | updatesPending
  | activeQueue

namespace DigitalOut

def commandConfigDigitalOut (value defaultValue : Bool) (maxDuration : UInt32) : DigitalOut where
  waketime := 0
  func := .unset
  scheduled := false
  onDuration := 0
  offDuration := 0
  endTime := 0
  pin := value
  maxDuration
  cycleTime := 0
  mq := []
  on := value
  toggling := false
  checkEnd := false
  defaultOn := defaultValue

variable (d : DigitalOut)

def digitalToggleEvent : DigitalOut :=
  let d := { d with pin := !d.pin, on := !d.on }
  let waketime := d.waketime + if d.on then d.onDuration else d.offDuration
  if d.checkEnd && !timerIsBefore waketime d.endTime then
    { d with func := .load, waketime := d.endTime }
  else { d with waketime }

def settingEnd (on toggling : Bool) : Option UInt32 :=
  if (toggling || on != d.defaultOn) && d.maxDuration != 0 then
    some (d.waketime + d.maxDuration)
  else none

def queuedEnd (endTime : Option UInt32) : Except DigitalShutdown (Option UInt32) :=
  match d.mq with
  | [] => .ok endTime
  | next :: _ =>
    if endTime.any fun endTime => timerIsBefore endTime next.waketime then
      .error .exceedsMaxDuration
    else .ok (some next.waketime)

def scheduleNext (onDuration : UInt32) : DigitalOut :=
  if !d.toggling then
    if !d.checkEnd then { d with scheduled := false }
    else { d with waketime := d.endTime }
  else
    let waketime := d.waketime + onDuration
    if d.checkEnd && !timerIsBefore waketime d.endTime then { d with waketime := d.endTime }
    else { d with func := .toggle, waketime, onDuration, offDuration := d.cycleTime - onDuration }

def digitalLoadEvent : Except DigitalShutdown DigitalOut :=
  match d.mq with
  | [] => .error .missedScheduling
  | m :: mq =>
    let on := m.onDuration != 0
    let toggling := on && decide (m.onDuration < d.cycleTime)
    let d := { d with mq, pin := on }
    match d.queuedEnd (d.settingEnd on toggling) with
    | .error reason => .error reason
    | .ok endTime =>
      .ok ({ d with
        endTime := endTime.getD 0
        on, toggling
        checkEnd := endTime.isSome }.scheduleNext m.onDuration)

def commandSetDigitalOutPwmCycle (cycleTicks : UInt32) : Except DigitalShutdown DigitalOut :=
  if d.mq.isEmpty then .ok { d with cycleTime := cycleTicks } else .error .updatesPending

/-- `command_queue_digital_out`; the queue has room for the setting. -/
def commandQueueDigitalOut (clock onTicks : UInt32) : Except DigitalShutdown DigitalOut :=
  let firstOnQueue := d.mq.isEmpty
  let d := { d with mq := d.mq ++ [⟨clock, onTicks⟩] }
  if !firstOnQueue then .ok d
  else if d.checkEnd && timerIsBefore d.endTime clock then .error .exceedsMaxDuration
  else
    let d := { d with endTime := clock, checkEnd := true }
    if d.toggling && timerIsBefore d.waketime clock then .ok d
    else .ok { d with waketime := clock, func := .load, scheduled := true }

def commandUpdateDigitalOut (now value : UInt32) : Except DigitalShutdown DigitalOut :=
  if !d.mq.isEmpty then .error .activeQueue
  else
    let on := value.toUInt8 != 0
    if on != d.defaultOn && d.maxDuration != 0 then
      .ok { d with
        pin := on
        waketime := now + d.maxDuration
        endTime := now + d.maxDuration
        func := .load
        on, toggling := false, checkEnd := true
        scheduled := true }
    else .ok { d with pin := on, on, toggling := false, checkEnd := false, scheduled := false }

def Active : Prop := d.toggling = true ∨ d.pin ≠ d.defaultOn

inductive ReachesLoad : DigitalOut → DigitalOut → Prop where
  | load {d : DigitalOut} (scheduled : d.scheduled = true) (func : d.func = .load) :
      ReachesLoad d d
  | toggle {d atLoad : DigitalOut} (scheduled : d.scheduled = true) (func : d.func = .toggle)
      (rest : ReachesLoad d.digitalToggleEvent atLoad) : ReachesLoad d atLoad

end DigitalOut

/-- The pin, the time, and when the current setting of the pin was applied. -/
structure PinRun where
  d : DigitalOut
  now : UInt32
  applied : UInt32

inductive DigitalEvent where
  | setPwmCycle (cycleTicks : UInt32)
  | queue (clock onTicks : UInt32)
  | update (value : UInt32)
  /-- The timer is due. -/
  | timer
  /-- Time passes, but not beyond the time the timer is due. -/
  | wait (ticks : UInt32)

namespace PinRun

def initial (value : Bool) (maxDuration now : UInt32) : PinRun :=
  ⟨.commandConfigDigitalOut value value maxDuration, now, now⟩

variable (run : PinRun)

/-- One event; undefined after a shutdown and where the event cannot happen. -/
def step : DigitalEvent → Option PinRun
  | .setPwmCycle cycleTicks =>
    (run.d.commandSetDigitalOutPwmCycle cycleTicks).toOption.map fun d => { run with d }
  | .queue clock onTicks =>
    (run.d.commandQueueDigitalOut clock onTicks).toOption.map fun d => { run with d }
  | .update value =>
    (run.d.commandUpdateDigitalOut run.now value).toOption.map fun d =>
      { run with d, applied := run.now }
  | .timer =>
    if run.d.scheduled && run.now == run.d.waketime then
      match run.d.func with
      | .unset => none
      | .toggle => some { run with d := run.d.digitalToggleEvent }
      | .load => run.d.digitalLoadEvent.toOption.map fun d =>
        { run with d, applied := run.d.waketime }
    else none
  | .wait ticks =>
    if !run.d.scheduled || decide (ticks ≤ run.d.waketime - run.now) then
      some { run with now := run.now + ticks }
    else none

/-- Durations and lead times are below half a turn of the clock. -/
def Bounded : DigitalEvent → Bool
  | .setPwmCycle cycleTicks => cycleTicks < 0x80000000
  | .queue clock onTicks => clock - run.now < 0x80000000 && onTicks < 0x80000000
  | _ => true

/-- A setting is not queued for a time before the setting that it is queued behind. -/
def InOrder : DigitalEvent → Bool
  | .queue clock _ => run.d.mq.getLast?.all fun last => clock - last.waketime < 0x80000000
  | _ => true

def boundedStep (event : DigitalEvent) : Option PinRun :=
  if run.Bounded event then run.step event else none

def orderedStep (event : DigitalEvent) : Option PinRun :=
  if run.InOrder event then run.boundedStep event else none

end PinRun

end CentauriCarbon.Outputs
