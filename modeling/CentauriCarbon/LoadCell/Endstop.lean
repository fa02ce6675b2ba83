import CentauriCarbon.Foundation.EventRun
import CentauriCarbon.LoadCell.SosFilter
import CentauriCarbon.Scheduler.TimerList

/-! # Load cell based endstops

A sensor reports samples. While homing, a number of samples above a force trigger a
synchronized stop. A watchdog is to notice that the sensor has stopped reporting.
-/

namespace CentauriCarbon.LoadCell

open Scheduler

inductive LoadCellError where
  | none
  | safetyLimit
  | driftLimit
  | watchdog

structure EndstopRange where
  safetyCountsMin : Int32
  safetyCountsMax : Int32
  tareCounts : Int32
  triggerGrams : UInt32
  /-- In Q16.15. -/
  triggerGramsFixed : Int32
  /-- In Q1.30. -/
  gramsPerCount : Int32

/-- `struct load_cell_endstop`, with the bits of `flags`, the level of the output pin and
the calls of `trsync_do_trigger` with their reasons. -/
structure LoadCellEndstop where
  /-- Is the timer of the watchdog in the list of the scheduler? -/
  timerActive : Bool
  waketime : UInt32
  range : EndstopRange
  sf : SosFilter
  isHoming : Bool
  isTriggered : Bool
  isHomingTrigger : Bool
  isAwaitHoming : Bool
  triggerTicks : UInt32
  triggerEmitTicks : UInt32
  lastSampleTicks : UInt32
  restTicks : UInt32
  /-- The trsync object, by its oid. -/
  ts : Option UInt32
  triggerSample : Int32
  triggerEmitSample : Int32
  lastSample : Int32
  sampleCount : UInt8
  triggerCount : UInt8
  triggerReason : UInt8
  errorReason : UInt8
  watchdogMax : UInt8
  watchdogCount : UInt8
  homingClock : UInt32
  error : LoadCellError
  outputPin : Bool
  useGpio : Bool
  raised : List (Option UInt32 × UInt8)

inductive EndstopShutdown where
  | rangeReversed
  | triggerGramsTooLarge
  | gramsPerCountInvalid

def countsToGrams (range : EndstopRange) (counts : Int32) : ℤ :=
  ((counts - range.tareCounts).toInt * range.gramsPerCount.toInt) >>> (15 : ℕ)

def roundFixedQ48 (fixedValue : ℤ) : ℤ := fixedValue >>> (15 : ℕ)

namespace LoadCellEndstop

variable (lce : LoadCellEndstop) (sample : Int32) (ticks : UInt32)

def setEndstopRange (safetyCountsMin safetyCountsMax tareCounts : Int32) (triggerGrams : UInt32)
    (gramsPerCount : Int32) : Except EndstopShutdown LoadCellEndstop :=
  if !decide (safetyCountsMin ≤ safetyCountsMax) then .error .rangeReversed
  else if triggerGrams > 65535 then .error .triggerGramsTooLarge
  else if gramsPerCount < 0 || gramsPerCount ≥ 1073741824 then .error .gramsPerCountInvalid
  else
    .ok { lce with
      range := ⟨safetyCountsMin, safetyCountsMax, tareCounts, triggerGrams,
        (triggerGrams <<< 15).toInt32, gramsPerCount⟩
      sf := lce.sf.resetFilterState }

def commandConfigLoadCellEndstop (sf : SosFilter) (useGpio : Bool) : LoadCellEndstop where
  timerActive := false
  waketime := 0
  range := ⟨0, 0, 0, 0, 0, 0⟩
  sf := sf.resetFilterState
  isHoming := false
  isTriggered := false
  isHomingTrigger := false
  isAwaitHoming := false
  triggerTicks := 0
  triggerEmitTicks := 0
  lastSampleTicks := 0
  restTicks := 0
  ts := none
  triggerSample := 0
  triggerEmitSample := 0
  lastSample := 0
  sampleCount := 2
  triggerCount := 2
  triggerReason := 0
  errorReason := 0
  watchdogMax := 0
  watchdogCount := 0
  homingClock := 0
  error := .none
  outputPin := true
  useGpio
  raised := []

def signal (reason : UInt8) : LoadCellEndstop :=
  if lce.useGpio then { lce with outputPin := false }
  else { lce with raised := lce.raised ++ [(lce.ts, reason)] }

def releasePin : LoadCellEndstop :=
  if lce.useGpio then { lce with outputPin := true } else lce

def tryTrigger : LoadCellEndstop :=
  let lce := { lce with isTriggered := true }
  if lce.isHoming && !lce.isHomingTrigger then
    { lce with isHomingTrigger := true }.signal lce.triggerReason
  else lce

def tryTriggerError : LoadCellEndstop :=
  if lce.isHoming then lce.signal lce.errorReason else lce

/-- The first part of `load_cell_endstop_report_sample`: the sample is saved, and homing
starts with the first sample that is not before the homing clock. -/
def saveSample : LoadCellEndstop :=
  let lce := { lce with lastSample := sample, lastSampleTicks := ticks, watchdogCount := 0 }
  if lce.isAwaitHoming && !timerIsBefore ticks lce.homingClock then
    { lce with isAwaitHoming := false, isHoming := true }
  else lce

def checkSafety : LoadCellEndstop :=
  if sample ≤ lce.range.safetyCountsMin || sample ≥ lce.range.safetyCountsMax then
    { lce with error := .safetyLimit }.tryTriggerError
  else lce

def clearTriggered : LoadCellEndstop :=
  { lce with isTriggered := false }.releasePin

def forceTriggers (rawGrams : ℤ) : Except FilterShutdown (LoadCellEndstop × Bool) :=
  if !overflowsInt32 rawGrams then
    match lce.sf.sosfilt (Int32.ofInt rawGrams) with
    | .error reason => .error reason
    | .ok (sf, filteredGrams) =>
      .ok ({ lce with sf }, decide (filteredGrams ≤ -lce.range.triggerGramsFixed))
  else .ok ({ lce with error := .driftLimit }.tryTriggerError, true)

def updateTrigger (isTrigger : Bool) : LoadCellEndstop :=
  let isHomingTriggered := lce.isHomingTrigger
  if isTrigger && lce.triggerCount > 0 then
    let lce :=
      if lce.isHoming && !isHomingTriggered && lce.triggerCount == lce.sampleCount then
        { lce with triggerTicks := ticks, triggerSample := sample }
      else lce
    let lce := { lce with triggerCount := lce.triggerCount - 1 }
    if lce.triggerCount = 0 then
      { lce with triggerEmitTicks := ticks, triggerEmitSample := sample }.tryTrigger
    else lce
  else if !isTrigger && lce.triggerCount < lce.sampleCount then
    let lce := { lce with triggerCount := lce.triggerCount + 1 }
    let lce :=
      if lce.triggerCount > lce.sampleCount then { lce with triggerCount := lce.sampleCount }
      else lce
    let lce := lce.clearTriggered
    if lce.isHoming && !isHomingTriggered then { lce with triggerTicks := 0 } else lce
  else lce

def latchTrigger (rawGrams : ℤ) (isTrigger : Bool) : Bool :=
  if lce.isTriggered then
    decide (lce.range.triggerGrams.toNat ≤ (roundFixedQ48 rawGrams).natAbs) || isTrigger
  else isTrigger

def evaluateSample : Except FilterShutdown LoadCellEndstop :=
  if lce.range.triggerGrams = 0 then .ok lce.clearTriggered
  else
    let rawGrams := countsToGrams lce.range sample
    match lce.forceTriggers rawGrams with
    | .error reason => .error reason
    | .ok (lce, isTrigger) =>
      .ok (lce.updateTrigger sample ticks (lce.latchTrigger rawGrams isTrigger))

def reportSample : Except FilterShutdown LoadCellEndstop :=
  let lce := lce.saveSample sample ticks
  if !lce.isHoming then .ok lce.clearTriggered
  else (lce.checkSafety sample).evaluateSample sample ticks

def watchdogEvent : LoadCellEndstop × TimerResult :=
  if !lce.isHoming || !lce.isAwaitHoming || lce.isHomingTrigger then (lce, .done)
  else
    let lce :=
      if lce.watchdogCount > lce.watchdogMax then
        { lce with error := .watchdog }.tryTriggerError
      else lce
    ({ lce with
      watchdogCount := lce.watchdogCount + 1
      waketime := lce.waketime + lce.restTicks }, .reschedule)

end LoadCellEndstop

structure HomeArgs where
  trsyncOid : UInt32
  triggerReason : UInt32
  errorReason : UInt32
  clock : UInt32
  sampleCount : UInt32
  restTicks : UInt32
  timeout : UInt32

def LoadCellEndstop.commandLoadCellEndstopHome (lce : LoadCellEndstop) (args : HomeArgs) :
    LoadCellEndstop :=
  let lce := { lce with
    timerActive := false
    isHomingTrigger := false
    isHoming := false
    isAwaitHoming := false
    triggerTicks := 0
    ts := none
    error := .none }
  if args.errorReason = 0 then lce
  else { lce with
    ts := if lce.useGpio then none else some args.trsyncOid
    triggerReason := args.triggerReason.toUInt8
    errorReason := args.errorReason.toUInt8
    waketime := args.clock
    homingClock := args.clock
    sampleCount := args.sampleCount.toUInt8
    restTicks := args.restTicks
    watchdogMax := args.timeout.toUInt8
    watchdogCount := 0
    sf := lce.sf.resetFilterState
    timerActive := true
    isAwaitHoming := true }

inductive EndstopEvent where
  | setRange (safetyCountsMin safetyCountsMax tareCounts : Int32) (triggerGrams : UInt32)
      (gramsPerCount : Int32)
  | home (args : HomeArgs)
  | sample (counts : Int32) (ticks : UInt32)
  /-- The timer of the watchdog is due. -/
  | watchdog

/-- One event; undefined after a shutdown, and where the watchdog is not scheduled. -/
def LoadCellEndstop.step (lce : LoadCellEndstop) : EndstopEvent → Option LoadCellEndstop
  | .setRange safetyCountsMin safetyCountsMax tareCounts triggerGrams gramsPerCount =>
    (lce.setEndstopRange safetyCountsMin safetyCountsMax tareCounts triggerGrams
      gramsPerCount).toOption
  | .home args => some (lce.commandLoadCellEndstopHome args)
  | .sample counts ticks => (lce.reportSample counts ticks).toOption
  | .watchdog =>
    if lce.timerActive then
      some { lce.watchdogEvent.1 with timerActive := lce.watchdogEvent.2 == .reschedule }
    else none

def plainEndstop : LoadCellEndstop :=
  .commandConfigLoadCellEndstop ⟨⟨0, true, fun _ => ⟨0, 0, 0, 0, 0⟩⟩, fun _ => (0, 0)⟩ false

end CentauriCarbon.LoadCell
