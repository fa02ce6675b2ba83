import CentauriCarbon.Foundation.EventRun
import Mathlib.Algebra.Order.Ring.Rat

/-! # Requests for the part fan

`GCodeRequestQueue` brings requests to an output, here the fan. Those of `M106` are carried out at
once. Those of `M107` wait in the look-ahead queue for the move before them, and then in `rqueue`
until the toolhead flushes up to their print time. Numbers are read as rationals.
-/

namespace CentauriCarbon.Outputs

/-- What a callback returns: an empty string, "discard", or "delay" with the time to wait. -/
inductive Action where
  | normal
  | discard
  | delay (minWait : ℚ)

/-- `GCodeRequestQueue`, together with the output that its callback controls. A request is a print
time and a value. -/
structure GCodeRequestQueue (Device : Type) where
  device : Device
  rqueue : List (ℚ × ℚ)
  nextMinFlushTime : ℚ

def pinMinTime : ℚ := 180 / 1000

namespace GCodeRequestQueue

variable {Device : Type} (callback : Device → ℚ → ℚ → Device × Action)

/-- The loop of `send_async_request`; there is no result if it takes more than `fuel` rounds. -/
def sendAsyncLoop (value printTime : ℚ) :
    ℕ → GCodeRequestQueue Device → Option (GCodeRequestQueue Device)
  | 0, _ => none
  | fuel + 1, queue =>
    let nextTime := max printTime queue.nextMinFlushTime
    match callback queue.device nextTime value with
    | (device, .discard) => some { queue with device }
    | (device, .normal) =>
      some { queue with device, nextMinFlushTime := nextTime + max 0 pinMinTime }
    | (device, .delay minWait) =>
      sendAsyncLoop value printTime fuel
        { queue with device, nextMinFlushTime := nextTime + max minWait pinMinTime }

def lastDue (nextTime : ℚ) (first : ℚ × ℚ) (rest : List (ℚ × ℚ)) : ℚ × ℚ :=
  (rest.takeWhile fun request => request.1 ≤ nextTime).getLast?.getD first

def dueLater (nextTime : ℚ) (rest : List (ℚ × ℚ)) : List (ℚ × ℚ) :=
  rest.dropWhile fun request => request.1 ≤ nextTime

/-- One round of `flush_notification`, if there is one more. Of the requests that are due at the
same time the last one is carried out; after a delay it is carried out again. -/
def flushRound (printTime : ℚ) (queue : GCodeRequestQueue Device) :
    Option (GCodeRequestQueue Device) :=
  match queue.rqueue with
  | [] => none
  | first :: rest =>
    let nextTime := max first.1 queue.nextMinFlushTime
    if printTime < nextTime then none
    else
      let request := lastDue nextTime first rest
      let later := dueLater nextTime rest
      match callback queue.device nextTime request.2 with
      | (device, .discard) => some { queue with device, rqueue := later }
      | (device, .normal) =>
        some ⟨device, later, nextTime + max 0 pinMinTime⟩
      | (device, .delay minWait) =>
        some ⟨device, request :: later, nextTime + max minWait pinMinTime⟩

def flushLoop (printTime : ℚ) : ℕ → GCodeRequestQueue Device → GCodeRequestQueue Device
  | 0, queue => queue
  | fuel + 1, queue =>
    match queue.flushRound callback printTime with
    | none => queue
    | some next => flushLoop printTime fuel next

/-- `flush_notification`. A request is delayed at most once, so there are no more rounds. -/
def flushNotification (printTime : ℚ) (queue : GCodeRequestQueue Device) :
    GCodeRequestQueue Device :=
  queue.flushLoop callback printTime (2 * queue.rqueue.length + 1)

def queueRequest (printTime value : ℚ) (queue : GCodeRequestQueue Device) :
    GCodeRequestQueue Device :=
  { queue with rqueue := queue.rqueue ++ [(printTime, value)] }

end GCodeRequestQueue

structure FanConfig where
  maxPower : ℚ
  kickStartTime : ℚ
  offBelow : ℚ
  hasEnablePin : Bool
  maxPower_pos : 0 < maxPower
  maxPower_le : maxPower ≤ 1
  kickStartTime_nonneg : 0 ≤ kickStartTime
  offBelow_nonneg : 0 ≤ offBelow
  offBelow_le : offBelow ≤ 1

def FanConfig.power (config : FanConfig) (value : ℚ) : ℚ :=
  let value := if value < config.offBelow then 0 else value
  max (min config.maxPower (value * config.maxPower)) 0

structure Fan where
  lastFanValue : ℚ
  lastReqValue : ℚ
  /-- The calls of `mcu_fan->set_pwm`, the first one first. -/
  sent : List (ℚ × ℚ)
  /-- The calls of `enable_pin->set_digital`. -/
  enabled : List (ℚ × Bool)

namespace Fan

def new : Fan := ⟨0, 0, [], []⟩

def lastSent (fan : Fan) : ℚ := (fan.sent.getLast?.map Prod.snd).getD 0

variable (config : FanConfig) (fan : Fan)

def setEnable (printTime value : ℚ) : List (ℚ × Bool) :=
  if config.hasEnablePin then
    if 0 < value ∧ fan.lastFanValue = 0 then fan.enabled ++ [(printTime, true)]
    else if value = 0 ∧ 0 < fan.lastFanValue then fan.enabled ++ [(printTime, false)]
    else fan.enabled
  else fan.enabled

def NeedsKick (value : ℚ) : Prop :=
  value ≠ 0 ∧ config.kickStartTime ≠ 0 ∧ (fan.lastFanValue = 0 ∨ 1 / 2 < value - fan.lastFanValue)

instance (value : ℚ) : Decidable (fan.NeedsKick config value) := inferInstanceAs (Decidable (_ ∧ _))

def applySpeed (printTime value : ℚ) : Fan × Action :=
  let value := config.power value
  if value = fan.lastFanValue then (fan, .discard)
  else if fan.NeedsKick config value then
    (⟨config.maxPower, value, fan.sent ++ [(printTime, config.maxPower)],
      fan.setEnable config printTime value⟩, .delay config.kickStartTime)
  else
    (⟨value, value, fan.sent ++ [(printTime, value)], fan.setEnable config printTime value⟩,
      .normal)

end Fan

/-- `PrinterFan` and the look-ahead queue of the toolhead: for each move the values that its timing
callbacks will request. -/
structure PrinterFan where
  gcrq : GCodeRequestQueue Fan
  lookahead : List (List ℚ)

inductive FanCommand where
  | m106 (s p : Option ℚ)
  | m107

/-- The value that a command requests for the part fan. A negative `S` is refused, and only a `P`
that is cut to zero names this fan. -/
def FanCommand.requested : FanCommand → Option ℚ
  | .m106 s p =>
    if s.getD 255 < 0 then none else if |p.getD 0| < 1 then some (s.getD 255 / 255) else none
  | .m107 => some 0

/-- What happens to the fan. The end of a move, and the times at which a command finds the
micro-controller and the last move, are those of the toolhead. -/
inductive FanEvent where
  | addMove
  | processMove (nextMoveTime : ℚ)
  | command (given : FanCommand) (estPrintTime lastMoveTime : ℚ)
  | flush (printTime : ℚ)

def FanEvent.requested : FanEvent → Option ℚ
  | .command given _ _ => given.requested
  | _ => none

namespace PrinterFan

variable (config : FanConfig) (fan : PrinterFan)

def new : PrinterFan := ⟨⟨.new, [], 0⟩, []⟩

/-- `set_speed`, which calls `send_async_request`. A kick is the first round of two. -/
def setSpeed (value estPrintTime : ℚ) : Option PrinterFan :=
  (fan.gcrq.sendAsyncLoop (Fan.applySpeed config) value (estPrintTime + pinMinTime) 2).map
    fun gcrq => { fan with gcrq }

def setSpeedFromCommand (value lastMoveTime : ℚ) : PrinterFan :=
  match fan.lookahead.getLast? with
  | none => { fan with gcrq := fan.gcrq.queueRequest lastMoveTime value }
  | some callbacks => { fan with lookahead := fan.lookahead.dropLast ++ [callbacks ++ [value]] }

def cmd (estPrintTime lastMoveTime : ℚ) : FanCommand → Option PrinterFan
  | .m106 s p =>
    match (FanCommand.m106 s p).requested with
    | none => some fan
    | some value => fan.setSpeed config value estPrintTime
  | .m107 => some (fan.setSpeedFromCommand 0 lastMoveTime)

/-- One round of the loop of `_process_moves`: the callbacks of the first move are called with the
time of its end. -/
def processMove (nextMoveTime : ℚ) : PrinterFan :=
  match fan.lookahead with
  | [] => fan
  | callbacks :: lookahead =>
    { gcrq := callbacks.foldl (fun gcrq value => gcrq.queueRequest nextMoveTime value) fan.gcrq
      lookahead }

def flush (printTime : ℚ) : PrinterFan :=
  { fan with gcrq := fan.gcrq.flushNotification (Fan.applySpeed config) printTime }

def step : FanEvent → Option PrinterFan
  | .addMove => some { fan with lookahead := fan.lookahead ++ [[]] }
  | .processMove nextMoveTime => some (fan.processMove nextMoveTime)
  | .command given estPrintTime lastMoveTime => fan.cmd config estPrintTime lastMoveTime given
  | .flush printTime => some (fan.flush config printTime)

end PrinterFan

end CentauriCarbon.Outputs
