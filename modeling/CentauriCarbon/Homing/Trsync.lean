import CentauriCarbon.Foundation.EventRun
import CentauriCarbon.Foundation.LinkedList

/-! # Synchronized triggers on the micro-controller

A trigger is reported by an endstop, by a timeout or by the host. It is passed on to the
signals that are registered at the time, and a task reports the state to the host. The
`signalCount` signals of the micro-controller are the nodes of an intrusive list.
-/

namespace CentauriCarbon.Homing

open Function

/-- Callbacks are known by number, as are the signals. -/
abbrev SignalCallback := ℕ

structure Trsync (signalCount : ℕ) where
  /-- Is `report_time` scheduled, and for when? -/
  reportActive : Bool
  reportWaketime : UInt32
  expireActive : Bool
  expireWaketime : UInt32
  reportTicks : UInt32
  signals : Option (Fin signalCount)
  /-- The fields `next` and `func` of the signals. -/
  next : Fin signalCount → Option (Fin signalCount)
  func : Fin signalCount → Option SignalCallback
  canTrigger : Bool
  report : Bool
  triggerReason : UInt8
  expireReason : UInt8
  /-- `trsync_wake` -/
  wake : Bool

structure Invocation (signalCount : ℕ) where
  signal : Fin signalCount
  callback : SignalCallback
  reason : UInt8

structure TrsyncState where
  canTrigger : Bool
  triggerReason : UInt8
  clock : UInt32
  deriving DecidableEq

namespace Trsync

variable {signalCount : ℕ}

def config (signalCount : ℕ) : Trsync signalCount where
  reportActive := false
  reportWaketime := 0
  expireActive := false
  expireWaketime := 0
  reportTicks := 0
  signals := none
  next := fun _ => none
  func := fun _ => none
  canTrigger := false
  report := false
  triggerReason := 0
  expireReason := 0
  wake := false

/-- The loop that dispatches the signals. It has no result if it does not end within
`fuel` rounds or calls a null pointer. -/
def dispatchSignals (reason : UInt8) : ℕ → Trsync signalCount →
    Option (Trsync signalCount × List (Invocation signalCount))
  | 0, _ => none
  | fuel + 1, ts =>
    match ts.signals with
    | none => some (ts, [])
    | some tss =>
      (ts.func tss).bind fun func =>
        let ts := { ts with
          signals := ts.next tss
          next := update ts.next tss none
          func := update ts.func tss none }
        (dispatchSignals reason fuel ts).map fun result =>
          (result.1, ⟨tss, func, reason⟩ :: result.2)

variable (ts : Trsync signalCount)

def doTrigger (reason : UInt8) : Option (Trsync signalCount × List (Invocation signalCount)) :=
  if !ts.canTrigger then some (ts, [])
  else
    let ts := { ts with triggerReason := reason, canTrigger := false, report := true }
    (ts.dispatchSignals reason (signalCount + 1)).map fun result =>
      ({ result.1 with wake := true }, result.2)

def reportEvent : Trsync signalCount :=
  { ts with report := true, wake := true, reportWaketime := ts.reportWaketime + ts.reportTicks }

/-- Add a callback to invoke on a trigger; there is no result if it shuts down. -/
def addSignal (tss : Fin signalCount)
    (func : Option SignalCallback) : Option (Trsync signalCount) :=
  if (ts.func tss).isSome || func.isNone then none
  else
    some { ts with
      func := update ts.func tss func
      next := update ts.next tss ts.signals
      signals := some tss }

def clearSignals : ℕ → Option (Fin signalCount) → Trsync signalCount → Option (Trsync signalCount)
  | 0, _, _ => none
  | _ + 1, none, ts => some ts
  | fuel + 1, some tss, ts =>
    clearSignals fuel (ts.next tss) { ts with
      func := update ts.func tss none
      next := update ts.next tss none }

def clear : Option (Trsync signalCount) :=
  let ts := { ts with reportActive := false, expireActive := false }
  (clearSignals (signalCount + 1) ts.signals ts).map fun ts =>
    { ts with
      signals := none
      canTrigger := false
      report := false
      triggerReason := 0
      expireReason := 0 }

def commandStart (reportClock reportTicks : UInt32)
    (expireReason : UInt8) : Option (Trsync signalCount) :=
  ts.clear.map fun ts =>
    { ts with
      canTrigger := true
      report := false
      reportWaketime := reportClock
      reportTicks
      reportActive := reportTicks ≠ 0
      expireReason }

def commandSetTimeout (clock : UInt32) : Trsync signalCount :=
  if ts.canTrigger then { ts with expireActive := true, expireWaketime := clock } else ts

/-- The part of `command_trsync_trigger` that runs with interrupts disabled. -/
def commandTrigger (reason : UInt8) : Option (Trsync signalCount × List (Invocation signalCount)) :=
  (ts.doTrigger reason).map fun result =>
    ({ result.1 with
        reportActive := false
        expireActive := false
        canTrigger := false
        report := false }, result.2)

/-- The part of `trsync_task` that runs with interrupts disabled; `time` has been read
before. -/
def taskSample (time : UInt32) : Trsync signalCount × TrsyncState :=
  ({ ts with report := false }, ⟨ts.canTrigger, ts.triggerReason, time⟩)

end Trsync

/-- Where the code that is not an interrupt has got to: it is between two commands and
tasks, in `trsync_task` before its interrupts are disabled, or about to send a message. -/
inductive Foreground where
  | between
  | reporting
  | sending (state : TrsyncState)
  deriving DecidableEq

inductive TrsyncEvent (signalCount : ℕ) where
  | start (reportClock reportTicks : UInt32) (expireReason : UInt8)
  | setTimeout (clock : UInt32)
  | trigger (reason : UInt8)
  | addSignal (tss : Fin signalCount) (func : Option SignalCallback)
  | task
  | taskSample (time : UInt32)
  | send
  /-- Interrupts. -/
  | expire
  | report
  | doTrigger (reason : UInt8)

structure Epoch (signalCount : ℕ) where
  /-- The signals registered before a trigger, the last one first. -/
  registered : List (Fin signalCount × SignalCallback)
  /-- The signals registered after a trigger. -/
  late : List (Fin signalCount × SignalCallback)
  /-- The reasons of the triggers that have taken effect. -/
  triggers : List UInt8
  invoked : List (Invocation signalCount)
  /-- The messages sent, each with the triggers at the time its state was read. -/
  messages : List (TrsyncState × List UInt8)
  /-- The triggers at the time the state of the next message was read. -/
  sampled : List UInt8

namespace Epoch

variable {signalCount : ℕ}

def begin : Epoch signalCount := ⟨[], [], [], [], [], []⟩

def addSignal (epoch : Epoch signalCount) (signal : Fin signalCount × SignalCallback) :
    Epoch signalCount :=
  if epoch.triggers = [] then { epoch with registered := signal :: epoch.registered }
  else { epoch with late := signal :: epoch.late }

def trigger (epoch : Epoch signalCount) (reason : UInt8)
    (invoked : List (Invocation signalCount)) : Epoch signalCount :=
  { epoch with triggers := epoch.triggers ++ [reason], invoked := epoch.invoked ++ invoked }

end Epoch

structure TrsyncMachine (signalCount : ℕ) where
  ts : Trsync signalCount
  foreground : Foreground
  /-- There is no epoch before the first `trsync_start`. -/
  epoch : Option (Epoch signalCount)

namespace TrsyncMachine

variable {signalCount : ℕ}

def initial (signalCount : ℕ) : TrsyncMachine signalCount :=
  ⟨.config signalCount, .between, none⟩

def triggered (machine : TrsyncMachine signalCount) (reason : UInt8)
    (result : Trsync signalCount × List (Invocation signalCount)) : TrsyncMachine signalCount :=
  { machine with
    ts := result.1
    epoch :=
      if machine.ts.canTrigger then
        machine.epoch.map fun epoch => epoch.trigger reason result.2
      else machine.epoch }

/-- One event, if it can happen: commands and tasks run one after the other, timers only
while they are scheduled, interrupts at any time. -/
def step (machine : TrsyncMachine signalCount) :
    TrsyncEvent signalCount → Option (TrsyncMachine signalCount)
  | .start reportClock reportTicks expireReason =>
    if machine.foreground = .between then
      (machine.ts.commandStart reportClock reportTicks expireReason).map fun ts =>
        { machine with ts, epoch := some .begin }
    else none
  | .setTimeout clock =>
    if machine.foreground = .between then
      some { machine with ts := machine.ts.commandSetTimeout clock }
    else none
  | .trigger reason =>
    if machine.foreground = .between then
      (machine.ts.commandTrigger reason).map fun result =>
        let next := machine.triggered reason result
        { next with
          foreground := .sending ⟨false, result.1.triggerReason, 0⟩
          epoch := next.epoch.map fun epoch => { epoch with sampled := epoch.triggers } }
    else none
  | .addSignal tss func =>
    if machine.foreground = .between then
      (machine.ts.addSignal tss func).map fun ts =>
        { machine with
          ts
          epoch := machine.epoch.map fun epoch => epoch.addSignal (tss, func.getD 0) }
    else none
  | .task =>
    if machine.foreground = .between ∧ machine.ts.wake then
      some { machine with
        ts := { machine.ts with wake := false }
        foreground := if machine.ts.report then .reporting else .between }
    else none
  | .taskSample time =>
    if machine.foreground = .reporting then
      some { machine with
        ts := (machine.ts.taskSample time).1
        foreground := .sending (machine.ts.taskSample time).2
        epoch := machine.epoch.map fun epoch => { epoch with sampled := epoch.triggers } }
    else none
  | .send =>
    match machine.foreground with
    | .sending state =>
      some { machine with
        foreground := .between
        epoch := machine.epoch.map fun epoch =>
          { epoch with messages := epoch.messages ++ [(state, epoch.sampled)] } }
    | _ => none
  | .expire =>
    if machine.ts.expireActive then
      (machine.ts.doTrigger machine.ts.expireReason).map fun result =>
        machine.triggered machine.ts.expireReason
          ({ result.1 with expireActive := false }, result.2)
    else none
  | .report =>
    if machine.ts.reportActive then some { machine with ts := machine.ts.reportEvent }
    else none
  | .doTrigger reason =>
    (machine.ts.doTrigger reason).map (machine.triggered reason)

end TrsyncMachine

end CentauriCarbon.Homing
