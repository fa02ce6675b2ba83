import CentauriCarbon.Reactor.Timers

/-! # Verification of heaters

`HeaterCheck::check_event` compares the temperature of a heater with its target once a second. A
heater that approaches a new target must gain `heating_gain` degrees every `check_gain_time`
seconds; otherwise the distance to the target adds up to an error. A fault is a flag and a signal
here, and a later check may take it back. Numbers are read as rationals.
-/

namespace CentauriCarbon.Heaters

structure CheckConfig where
  hysteresis : ℚ
  maxError : ℚ
  heatingGain : ℚ
  checkGainTime : ℚ
  hysteresis_nonneg : 0 ≤ hysteresis
  maxError_nonneg : 0 ≤ maxError
  heatingGain_pos : 0 < heatingGain
  checkGainTime_ge : 1 ≤ checkGainTime

def CheckConfig.default : CheckConfig where
  hysteresis := 5
  maxError := 120
  heatingGain := 2
  checkGainTime := 20
  hysteresis_nonneg := by decide
  maxError_nonneg := by decide
  heatingGain_pos := by decide
  checkGainTime_ge := by decide

structure HeaterCheck where
  approachingTarget : Bool
  startingApproach : Bool
  lastTarget : ℚ
  goalTemp : ℚ
  error : ℚ
  goalSystime : ℚ
  isVerifyHeaterFault : Bool

def HeaterCheck.new : HeaterCheck where
  approachingTarget := false
  startingApproach := false
  lastTarget := 0
  goalTemp := 0
  error := 0
  goalSystime := Reactor.never
  isVerifyHeaterFault := false

structure Sample where
  eventtime : ℚ
  temp : ℚ
  target : ℚ
  deriving DecidableEq

inductive VerifySignal where
  | fault
  | normal
  deriving DecidableEq

structure CheckResult where
  check : HeaterCheck
  signal : Option VerifySignal
  waketime : ℚ

def Sample.IsHealthy (sample : Sample) (config : CheckConfig) : Prop :=
  sample.target - config.hysteresis ≤ sample.temp ∨ sample.target ≤ 0

instance (sample : Sample) (config : CheckConfig) : Decidable (sample.IsHealthy config) :=
  inferInstanceAs (Decidable (_ ∨ _))

namespace HeaterCheck

def clearFault (check : HeaterCheck) : HeaterCheck × Option VerifySignal :=
  ({ check with isVerifyHeaterFault := false },
    if check.isVerifyHeaterFault then some .normal else none)

def checkHealthy (config : CheckConfig) (check : HeaterCheck) (sample : Sample) : CheckResult :=
  let (check, signal) :=
    clearFault { check with approachingTarget := false, startingApproach := false }
  { check := { check with
      error := if sample.temp ≤ sample.target + config.hysteresis then 0 else check.error
      lastTarget := sample.target }
    signal
    waketime := sample.eventtime + 1 }

def heaterFault (check : HeaterCheck) (eventtime : ℚ) : CheckResult where
  check := { check with isVerifyHeaterFault := true }
  signal := some .fault
  waketime := eventtime + 2

def checkCold (config : CheckConfig) (check : HeaterCheck) (sample : Sample) : CheckResult :=
  let continued (check : HeaterCheck) (signal : Option VerifySignal) : CheckResult :=
    { check := { check with lastTarget := sample.target }
      signal
      waketime := sample.eventtime + 1 }
  if !check.approachingTarget then
    if sample.target ≠ check.lastTarget then
      continued
        { check with
          approachingTarget := true
          startingApproach := true
          goalTemp := sample.temp + config.heatingGain
          goalSystime := sample.eventtime + config.checkGainTime }
        none
    else if config.maxError ≤ check.error then
      if !check.isVerifyHeaterFault then check.heaterFault sample.eventtime
      else continued { check with error := config.maxError } none
    else continued check none
  else if check.goalTemp ≤ sample.temp then
    continued
      { check with
        startingApproach := false
        error := 0
        goalTemp := sample.temp + config.heatingGain
        goalSystime := sample.eventtime + config.checkGainTime }
      none
  else if check.goalSystime ≤ sample.eventtime then
    let (check, signal) := clearFault { check with approachingTarget := false }
    continued check signal
  else if check.startingApproach then
    continued
      { check with goalTemp := min check.goalTemp (sample.temp + config.heatingGain) } none
  else continued check none

def checkEvent (config : CheckConfig) (check : HeaterCheck) (sample : Sample) : CheckResult :=
  if sample.IsHealthy config then check.checkHealthy config sample
  else
    checkCold config
      { check with error := check.error + ((sample.target - config.hysteresis) - sample.temp) }
      sample

def run (config : CheckConfig) (check : HeaterCheck) : List Sample → HeaterCheck
  | [] => check
  | sample :: samples => run config (check.checkEvent config sample).check samples

end HeaterCheck

end CentauriCarbon.Heaters
