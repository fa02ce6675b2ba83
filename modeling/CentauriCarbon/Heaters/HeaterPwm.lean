import Mathlib.Algebra.Order.Ring.Rat

/-! # Power of heaters

`Heater::temperature_callback` lets a controller choose the power for every temperature that the
micro-controller reports. `Heater::set_pwm` sends it on, but not if it has hardly changed and the
last value sent is not too old. Numbers are read as rationals.
-/

namespace CentauriCarbon.Heaters

def maxHeatTime : ℚ := 5

/-- The options of a heater that the callback reads, with the bounds that reading them checks. The
delay is the time between two reports of the sensor. -/
structure HeaterConfig where
  pwmDelay : ℚ
  maxPower : ℚ
  smoothTime : ℚ
  minExtrudeTemp : ℚ
  pwmDelay_nonneg : 0 ≤ pwmDelay
  maxPower_pos : 0 < maxPower
  maxPower_le : maxPower ≤ 1
  smoothTime_pos : 0 < smoothTime

structure ControlBase where
  State : Type
  temperatureUpdate : State → (readTime temp targetTemp : ℚ) → ℚ × State

structure PwmCommand where
  pwmTime : ℚ
  value : ℚ
  deriving DecidableEq

structure Heater (Control : ControlBase) where
  targetTemp : ℚ
  isShutdown : Bool
  isAdcTempFault : Bool
  nextPwmTime : ℚ
  lastPwmValue : ℚ
  lastTemp : ℚ
  lastTempTime : ℚ
  smoothedTemp : ℚ
  canExtrude : Bool
  control : Control.State
  /-- The values sent so far, the oldest first. -/
  sent : List PwmCommand

namespace Heater

variable {Control : ControlBase}

def new (config : HeaterConfig) (control : Control.State) : Heater Control where
  targetTemp := 0
  isShutdown := false
  isAdcTempFault := false
  nextPwmTime := 0
  lastPwmValue := 0
  lastTemp := 0
  lastTempTime := 0
  smoothedTemp := 0
  canExtrude := config.minExtrudeTemp ≤ 0
  control
  sent := []

def allowedValue (heater : Heater Control) (value : ℚ) : ℚ :=
  let value := if heater.isAdcTempFault then 0 else value
  if heater.targetTemp ≤ 0 ∨ heater.isShutdown then 0 else value

def IsSuppressed (heater : Heater Control) (readTime value : ℚ) : Prop :=
  (readTime < heater.nextPwmTime ∨ heater.lastPwmValue = 0) ∧
    |value - heater.lastPwmValue| < 5 / 100

instance (heater : Heater Control) (readTime value : ℚ) :
    Decidable (heater.IsSuppressed readTime value) :=
  inferInstanceAs (Decidable (_ ∧ _))

def setPwm (config : HeaterConfig) (heater : Heater Control) (readTime value : ℚ) :
    Heater Control :=
  let value := heater.allowedValue value
  if heater.IsSuppressed readTime value then heater
  else
    let pwmTime := readTime + config.pwmDelay
    { heater with
      nextPwmTime := pwmTime + 75 / 100 * maxHeatTime
      lastPwmValue := value
      sent := heater.sent ++ [⟨pwmTime, value⟩] }

def temperatureCallback (config : HeaterConfig) (heater : Heater Control) (readTime temp : ℚ) :
    Heater Control :=
  let timeDiff := readTime - heater.lastTempTime
  let (value, control) := Control.temperatureUpdate heater.control readTime temp heater.targetTemp
  let heater :=
    { heater with lastTemp := temp, lastTempTime := readTime, control }.setPwm config readTime value
  let tempDiff := temp - heater.smoothedTemp
  let adjTime := min (timeDiff * (1 / config.smoothTime)) 1
  let smoothedTemp := heater.smoothedTemp + tempDiff * adjTime
  { heater with smoothedTemp, canExtrude := config.minExtrudeTemp ≤ smoothedTemp }

end Heater

def controlBangBang (heaterMaxPower maxDelta : ℚ) : ControlBase where
  State := Bool
  temperatureUpdate heating _ temp targetTemp :=
    let heating :=
      if heating ∧ targetTemp + maxDelta ≤ temp then false
      else if !heating ∧ temp ≤ targetTemp - maxDelta then true
      else heating
    (if heating then heaterMaxPower else 0, heating)

end CentauriCarbon.Heaters
