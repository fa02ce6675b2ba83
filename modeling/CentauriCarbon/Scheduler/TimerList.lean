import CentauriCarbon.Foundation.LinkedList

/-! # The timer list of the micro-controller

Timers are nodes of a linked list that starts at `timer_list`. The walks along the list
take a bound on their length; a walk that does not end within it has no result, and neither
has one that runs into a null pointer.
-/

namespace CentauriCarbon.Scheduler

open Function

inductive TimerId where
  | periodic
  | sentinel
  | deleted
  | user (n : ℕ)
  deriving DecidableEq

structure Sched where
  next : TimerId → Option TimerId
  waketime : TimerId → UInt32
  timerList : TimerId
  lastInsert : TimerId
  shutdownStatus : Bool

def Sched.initial : Sched where
  next := fun
    | .periodic => some .sentinel
    | _ => none
  waketime := fun
    | .sentinel => 0x80000000
    | _ => 0
  timerList := .periodic
  lastInsert := .periodic
  shutdownStatus := false

def timerIsBefore (time1 time2 : UInt32) : Bool :=
  decide ((time1 - time2).toInt32 < 0)

inductive TimerResult where
  | done
  | reschedule
  deriving DecidableEq

namespace Sched

variable (sched : Sched)

def periodicEvent (period : UInt32) : Sched :=
  let waketime := sched.waketime .periodic + period
  { sched with
    waketime := update (update sched.waketime .periodic waketime)
      .sentinel (waketime + 0x80000000) }

def insertTimer (fuel : ℕ) (pos t : TimerId) (waketime : UInt32) : Option Sched :=
  match walk sched.next (fun pos => timerIsBefore waketime (sched.waketime pos)) fuel pos with
  | .found prev pos =>
    some { sched with next := update (update sched.next t (some pos)) prev (some t) }
  | _ => none

def schedTimerReset : Sched :=
  { sched with
    timerList := .deleted
    waketime := update sched.waketime .deleted (sched.waketime .periodic)
    lastInsert := .periodic
    next := update (update sched.next .deleted (some .periodic)) .periodic (some .sentinel) }

/-- `run_shutdown`, without the shutdown functions of the users. -/
def runShutdown : Sched :=
  { sched.schedTimerReset with shutdownStatus := true }

/-- A timer that is added in front of all others and is too late at time `now`. -/
def tooClose (waketime now : UInt32) : Bool :=
  timerIsBefore waketime (sched.waketime sched.timerList) && timerIsBefore waketime now &&
    !sched.shutdownStatus

/-- `__sched_add_timer`, with `timer_read_time()` giving `now`. -/
def schedAddTimer (fuel : ℕ) (add : TimerId) (now : UInt32) : Option Sched :=
  let waketime := sched.waketime add
  let tl := sched.timerList
  if timerIsBefore waketime (sched.waketime tl) then
    if timerIsBefore waketime now && !sched.shutdownStatus then
      some sched.runShutdown
    else
      let follower := if tl = .deleted then sched.next .deleted else some tl
      some { sched with
        next := update (update sched.next add follower) .deleted (some add)
        waketime := update sched.waketime .deleted waketime
        timerList := .deleted }
  else
    sched.insertTimer fuel tl add waketime

def removeTimer (fuel : ℕ) (del : TimerId) : Option Sched :=
  if sched.timerList = del then
    some { sched with
      waketime := update sched.waketime .deleted (sched.waketime del)
      next := update sched.next .deleted (sched.next del)
      timerList := .deleted }
  else
    match walk sched.next (· = del) fuel sched.timerList with
    | .found prev _ =>
      some { sched with next := update sched.next prev (sched.next del) }
    | .ended => some sched
    | .unfinished => none

def schedDelTimer (fuel : ℕ) (del : TimerId) : Option Sched :=
  (sched.removeTimer fuel del).map fun sched =>
    { sched with lastInsert := if sched.lastInsert = del then .periodic else sched.lastInsert }

end Sched

inductive CallbackAction where
  | setWaketime (waketime : UInt32)
  | delTimer (n : ℕ)

structure Callback where
  actions : List CallbackAction
  result : TimerResult

namespace Sched

def runAction (sched : Sched) (fuel : ℕ) (t : TimerId) : CallbackAction → Option Sched
  | .setWaketime waketime =>
    some { sched with waketime := update sched.waketime t waketime }
  | .delTimer n => sched.schedDelTimer fuel (.user n)

def runActions (sched : Sched) (fuel : ℕ) (t : TimerId) : List CallbackAction → Option Sched
  | [] => some sched
  | action :: actions =>
    (sched.runAction fuel t action).bind fun sched => sched.runActions fuel t actions

/-- The call of `t->func`. The callback of the sentinel does not return. -/
def func (sched : Sched) (fuel : ℕ) (period : UInt32) (callback : Callback) :
    TimerId → Option (Sched × TimerResult)
  | .periodic => some (sched.periodicEvent period, .reschedule)
  | .sentinel => none
  | .deleted => some (sched, .done)
  | .user n =>
    (sched.runActions fuel (.user n) callback.actions).map fun sched =>
      (sched, callback.result)

/-- The second part of `sched_timer_dispatch`: `timer_list` after the callback of `t`, and
the waketime returned to the board code. -/
def updateTimerList (sched : Sched) (fuel : ℕ) (t : TimerId) (res : TimerResult) :
    Option (Sched × UInt32) :=
  let updatedWaketime := sched.waketime t
  (sched.next t).bind fun next =>
    if res = .done then
      some ({ sched with
        timerList := next
        lastInsert := if sched.lastInsert = t then next else sched.lastInsert },
        sched.waketime next)
    else if !timerIsBefore updatedWaketime (sched.waketime next) then
      let pos :=
        if timerIsBefore updatedWaketime (sched.waketime sched.lastInsert) then next
        else sched.lastInsert
      (insertTimer { sched with timerList := next } fuel pos t updatedWaketime).map
        fun inserted => ({ inserted with lastInsert := t }, sched.waketime next)
    else
      some (sched, updatedWaketime)

def schedTimerDispatch (sched : Sched) (fuel : ℕ) (period : UInt32) (callback : Callback) :
    Option (Sched × UInt32) :=
  (sched.func fuel period callback sched.timerList).bind fun result =>
    result.1.updateTimerList fuel sched.timerList result.2

end Sched

inductive SchedEvent where
  | add (n : ℕ) (waketime now : UInt32)
  | del (n : ℕ)
  | dispatch (callback : Callback)
  | shutdown
  | clearShutdown

/-- The list with an account of what it should hold: the timers that were added and have
neither finished nor been deleted, and the time of the last dispatched timer. -/
structure Machine where
  sched : Sched
  live : List ℕ
  dispatched : UInt32

namespace Machine

def initial : Machine := ⟨.initial, [], 0⟩

def deletions (actions : List CallbackAction) : List ℕ :=
  actions.filterMap fun
    | .delTimer n => some n
    | .setWaketime _ => none

def liveAfter (live : List ℕ) (callback : Callback) : TimerId → List ℕ
  | .user n =>
    live.filter fun m =>
      decide (m ∉ deletions callback.actions ∧ (callback.result = .done → m ≠ n))
  | _ => live

def step (fuel : ℕ) (period : UInt32) (machine : Machine) : SchedEvent → Option Machine
  | .add n waketime now =>
    let sched := { machine.sched with waketime := update machine.sched.waketime (.user n) waketime }
    (sched.schedAddTimer fuel (.user n) now).map fun next =>
      { machine with
        sched := next
        live := if sched.tooClose waketime now then [] else n :: machine.live }
  | .del n =>
    (machine.sched.schedDelTimer fuel (.user n)).map fun next =>
      { machine with sched := next, live := machine.live.filter (· ≠ n) }
  | .dispatch callback =>
    (machine.sched.schedTimerDispatch fuel period callback).map fun result =>
      { sched := result.1
        live := liveAfter machine.live callback machine.sched.timerList
        dispatched := machine.sched.waketime machine.sched.timerList }
  | .shutdown => some { machine with sched := machine.sched.runShutdown, live := [] }
  | .clearShutdown =>
    some { machine with sched := { machine.sched with shutdownStatus := false } }

end Machine

end CentauriCarbon.Scheduler
