import CentauriCarbon.LoadCell.Endstop

/-! # The watchdog of a load cell endstop

The watchdog goes on only if the endstop is both homing and waiting for homing, which never
happens. So its first event ends it.
-/

namespace CentauriCarbon.LoadCell

open Scheduler

namespace LoadCellEndstop

def Live (lce : LoadCellEndstop) : Prop :=
  (lce.isAwaitHoming = true ∨ lce.isHoming = true) ∧ lce.isHomingTrigger = false

def Exclusive (lce : LoadCellEndstop) : Prop := (lce.isHoming && lce.isAwaitHoming) = false

def phase (lce : LoadCellEndstop) : Bool × Bool := (lce.isHoming, lce.isAwaitHoming)

section

variable (lce : LoadCellEndstop)
include lce

theorem signal_phase (reason : UInt8) : (lce.signal reason).phase = lce.phase := by
  rw [signal]
  split <;> rfl

theorem clearTriggered_phase : lce.clearTriggered.phase = lce.phase := by
  rw [clearTriggered, releasePin]
  split <;> rfl

theorem tryTrigger_phase : lce.tryTrigger.phase = lce.phase := by
  rw [tryTrigger]
  split
  · exact signal_phase _ _
  · rfl

theorem tryTriggerError_phase : lce.tryTriggerError.phase = lce.phase := by
  rw [tryTriggerError]
  split
  · exact signal_phase _ _
  · rfl

theorem checkSafety_phase (sample : Int32) : (lce.checkSafety sample).phase = lce.phase := by
  rw [checkSafety]
  split
  · exact tryTriggerError_phase _
  · rfl

theorem updateTrigger_phase (sample : Int32) (ticks : UInt32) (isTrigger : Bool) :
    (lce.updateTrigger sample ticks isTrigger).phase = lce.phase := by
  rw [updateTrigger]
  dsimp only
  split
  · split <;> split <;> first | rfl | exact tryTrigger_phase _
  · split
    · split <;> split <;> first | rfl | exact clearTriggered_phase _
    · rfl

end

variable {lce next : LoadCellEndstop}

theorem forceTriggers_phase (judged : lce.forceTriggers rawGrams = .ok (next, isTrigger)) :
    next.phase = lce.phase := by
  rw [forceTriggers] at judged
  split at judged
  · split at judged
    · cases judged
    · cases judged
      rfl
  · cases judged
    exact tryTriggerError_phase _

theorem evaluateSample_phase (evaluated : lce.evaluateSample sample ticks = .ok next) :
    next.phase = lce.phase := by
  rw [evaluateSample] at evaluated
  split at evaluated
  · cases evaluated
    exact clearTriggered_phase _
  dsimp only at evaluated
  split at evaluated
  · cases evaluated
  next middle isTrigger judged =>
    cases evaluated
    exact (updateTrigger_phase _ _ _ _).trans (forceTriggers_phase judged)

theorem Exclusive.of_phase (exclusive : lce.Exclusive) (same : next.phase = lce.phase) :
    next.Exclusive := by
  change (next.phase.1 && next.phase.2) = false
  rw [same]
  exact exclusive

theorem Exclusive.reportSample (exclusive : lce.Exclusive)
    (reported : lce.reportSample sample ticks = .ok next) : next.Exclusive := by
  have saved : (lce.saveSample sample ticks).Exclusive := by
    rw [saveSample]
    split
    · rfl
    · exact exclusive
  rw [LoadCellEndstop.reportSample] at reported
  split at reported
  · cases reported
    exact saved.of_phase (clearTriggered_phase _)
  · exact saved.of_phase ((evaluateSample_phase reported).trans (checkSafety_phase _ _))

theorem exclusive_home (lce : LoadCellEndstop) (args : HomeArgs) :
    (lce.commandLoadCellEndstopHome args).Exclusive := by
  rw [commandLoadCellEndstopHome]
  split <;> rfl

theorem Exclusive.watchdogEvent (exclusive : lce.Exclusive) : lce.watchdogEvent = (lce, .done) := by
  rw [LoadCellEndstop.watchdogEvent, if_pos]
  rw [Exclusive] at exclusive
  cases homing : lce.isHoming <;> simp_all

theorem Exclusive.step (exclusive : lce.Exclusive) (stepped : lce.step event = some next) :
    next.Exclusive := by
  cases event with
  | setRange =>
    have ranged := eq_ok_of_toOption stepped
    rw [setEndstopRange] at ranged
    split at ranged
    · cases ranged
    split at ranged
    · cases ranged
    split at ranged
    · cases ranged
    · cases ranged
      exact exclusive
  | home args =>
    cases stepped
    exact exclusive_home lce args
  | sample counts ticks => exact exclusive.reportSample (eq_ok_of_toOption stepped)
  | watchdog =>
    rw [LoadCellEndstop.step, Option.ite_none_right_eq_some] at stepped
    rcases stepped with ⟨_, isNext⟩
    cases isNext
    rw [exclusive.watchdogEvent]
    exact exclusive

end LoadCellEndstop

inductive SessionEvent where
  | sample (counts : Int32) (ticks : UInt32)
  | watchdog

def SessionEvent.toEvent : SessionEvent → EndstopEvent
  | .sample counts ticks => .sample counts ticks
  | .watchdog => .watchdog

def LoadCellEndstop.session (lce : LoadCellEndstop) (events : List SessionEvent) :
    Option LoadCellEndstop :=
  runEvents LoadCellEndstop.step lce (events.map SessionEvent.toEvent)

namespace LoadCellEndstop

/-- The watchdog is dispatched while the session is live. -/
def Dispatched (lce : LoadCellEndstop) (before : List SessionEvent)
    (reached : LoadCellEndstop) : Prop :=
  lce.session before = some reached ∧ reached.timerActive = true ∧ reached.Live

def KeepsWatching (lce : LoadCellEndstop) (events : List SessionEvent) : Prop :=
  ∀ before after reached, events = before ++ .watchdog :: after →
    lce.Dispatched before reached → reached.watchdogEvent.2 = .reschedule

def RaisesError (lce : LoadCellEndstop) (events : List SessionEvent) : Prop :=
  ∀ before after reached final,
    events = before ++ List.replicate (reached.watchdogMax.toNat + 2) .watchdog ++ after →
    lce.session before = some reached → reached.isHoming = true → reached.Live →
    reached.session (List.replicate (reached.watchdogMax.toNat + 2) .watchdog) = some final →
    if reached.useGpio then final.outputPin = false
    else (reached.ts, reached.errorReason) ∈ final.raised.drop reached.raised.length

end LoadCellEndstop

/-- In a session that is started in any state: the watchdog keeps watching and raises its
error if and only if none of its events comes while the session is live. -/
theorem watchdog_ends_at_first_event (lce : LoadCellEndstop) (args : HomeArgs)
    (events : List SessionEvent) :
    ((lce.commandLoadCellEndstopHome args).KeepsWatching events ∧
      (lce.commandLoadCellEndstopHome args).RaisesError events) ↔
    ∀ before after reached, events = before ++ .watchdog :: after →
      ¬(lce.commandLoadCellEndstopHome args).Dispatched before reached := by
  have exclusive := LoadCellEndstop.exclusive_home lce args
  constructor
  · rintro ⟨keeps, _⟩ before after reached split dispatched
    have reachedExclusive : reached.Exclusive :=
      runEvents_invariant (fun _ _ _ before stepped => before.step stepped) exclusive dispatched.1
    have ends := reachedExclusive.watchdogEvent
    have reschedules := keeps before after reached split dispatched
    rw [ends] at reschedules
    cases reschedules
  intro never
  constructor
  · intro before after reached split dispatched
    exact absurd dispatched (never before after reached split)
  intro before after reached final split ranBefore _ live ranWatchdog
  have active : reached.timerActive := by
    rcases runEvents_cons_eq_some.mp ranWatchdog with ⟨_, stepped, _⟩
    rw [SessionEvent.toEvent, LoadCellEndstop.step, Option.ite_none_right_eq_some] at stepped
    exact stepped.1
  rw [List.replicate_succ, List.append_assoc, List.cons_append] at split
  exact absurd ⟨ranBefore, active, live⟩ (never before _ reached split)

/-- After the range is set, homing begins with a sample at tick 110. The watchdog event after it is
the last one, although the endstop has not triggered. -/
theorem watchdog_not_rescheduled :
    ∃ ranged, plainEndstop.setEndstopRange (-1000) 1000 0 100 536870912 = .ok ranged ∧
      ¬(ranged.commandLoadCellEndstopHome ⟨0, 1, 2, 100, 2, 50, 3⟩).KeepsWatching
        [.sample 0 110, .watchdog] := by
  refine ⟨_, rfl, fun keeps => ?_⟩
  generalize isStarted : LoadCellEndstop.commandLoadCellEndstopHome _ _ = started at keeps
  have begins : (started.session [.sample 0 110]).map (fun reached =>
      (reached.timerActive, reached.isHoming, reached.isHomingTrigger,
        reached.watchdogEvent.2)) = some (true, true, false, .done) := by
    rw [← isStarted]
    decide +kernel
  rcases Option.map_eq_some_iff.mp begins with ⟨reached, ran, state⟩
  simp only [Prod.mk.injEq] at state
  rcases state with ⟨active, homing, untriggered, done⟩
  have reschedules := keeps [.sample 0 110] [] reached rfl
    ⟨ran, active, .inr homing, untriggered⟩
  rw [done] at reschedules
  cases reschedules

end CentauriCarbon.LoadCell
