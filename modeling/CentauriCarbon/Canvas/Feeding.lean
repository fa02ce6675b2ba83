import CentauriCarbon.Foundation.EventRun
import Mathlib.Tactic.NormNum

/-! # The feeders of the filament changer

A thread polls the feeders and keeps `connect_status`. The commands of the G-code run the motors
and poll the positions that the thread has read.
-/

namespace CentauriCarbon.Canvas

/-- What `canvas_controller_thread` knows of the connection, with the number of reads that have
failed since the last successful one. -/
structure CanvasController where
  connectStatus : Bool
  timeoutCount : Nat
  failedReads : Nat
  deriving DecidableEq

namespace CanvasController

def start : CanvasController := ⟨false, 0, 0⟩

variable (controller : CanvasController)

/-- A round of the thread, given whether `read_feeders_status` succeeds. -/
def canvasControllerThread (isRead : Bool) : CanvasController :=
  if !isRead then
    let controller := { controller with failedReads := controller.failedReads + 1 }
    if controller.timeoutCount > 10 && controller.connectStatus then
      { controller with connectStatus := false }
    else if controller.connectStatus then
      { controller with timeoutCount := controller.timeoutCount + 1 }
    else controller
  else if !controller.connectStatus then ⟨true, 0, 0⟩
  else { controller with failedReads := 0 }

def step (isRead : Bool) : Option CanvasController :=
  some (controller.canvasControllerThread isRead)

/-- At most one read has failed since the device was found when a read succeeds. -/
def ReadsAtOnce (isRead : Bool) : Prop :=
  isRead → controller.connectStatus → controller.timeoutCount ≤ 1

instance : Decidable (controller.ReadsAtOnce isRead) :=
  inferInstanceAs (Decidable (_ → _ → _))

/-- The device is lost only at a read that ends a run of at least eleven failed ones, and found
again at the next successful one. -/
structure LostInRuns : Prop where
  lost : ∀ isRead, controller.connectStatus →
    ¬(controller.canvasControllerThread isRead).connectStatus →
      isRead = false ∧ 11 ≤ (controller.canvasControllerThread isRead).failedReads
  found : (controller.canvasControllerThread true).connectStatus

def Counted : Prop :=
  controller.connectStatus → controller.timeoutCount ≤ controller.failedReads + 1

theorem Counted.canvasControllerThread (counted : controller.Counted)
    (atOnce : controller.ReadsAtOnce isRead) :
    (controller.canvasControllerThread isRead).Counted := by
  rcases controller with ⟨_ | _, timeoutCount, failedReads⟩
  · cases isRead <;> simp [Counted, CanvasController.canvasControllerThread]
  cases isRead with
  | false =>
    have kept : timeoutCount ≤ failedReads + 1 := counted rfl
    unfold Counted CanvasController.canvasControllerThread
    split_ifs <;> grind
  | true => exact atOnce rfl

/-- A successful read does not reset the count of timeouts while the device is connected. -/
theorem lost_in_runs {reads : List Bool} (meets : RunMeets step ReadsAtOnce start reads)
    (ran : runEvents step start reads = some controller) : controller.LostInRuns := by
  have counted : controller.Counted :=
    runEvents_invariant_of_meets
      (fun _ _ _ counted atOnce stepped =>
        Option.some.inj stepped ▸ counted.canvasControllerThread _ atOnce)
      Bool.noConfusion meets ran
  rcases controller with ⟨_ | _, timeoutCount, failedReads⟩
  · exact ⟨nofun, rfl⟩
  refine ⟨?_, rfl⟩
  intro isRead _ lost
  cases isRead with
  | true => exact absurd rfl lost
  | false =>
    have kept : timeoutCount ≤ failedReads + 1 := counted rfl
    unfold canvasControllerThread at *
    grind

theorem lost_after_eleven_failed : LostInRuns ⟨true, 11, 11⟩ :=
  lost_in_runs _
    (by decide : RunMeets step ReadsAtOnce start (true :: List.replicate 11 false)) rfl

theorem lost_after_isolated_timeouts :
    runEvents step start (true :: (List.replicate 11 [true, false]).flatten) =
        some ⟨true, 11, 1⟩ ∧ ¬LostInRuns ⟨true, 11, 1⟩ :=
  ⟨by decide, fun runs => absurd (runs.lost false rfl (by decide)).2 (by decide)⟩

end CanvasController

inductive FeederCommand where
  | filamentControl (channel mm mmS mmSs : Int)
  | filamentStop (channel : Int)

/-- The parameters of `CMD_canvas_motor_control`. -/
structure MotorRequest where
  channel : Int
  dis : Int
  speed : Int
  accel : Int
  timeout : Nat

/-- A round of the loop: the clock that is compared, and after the pause the clock and the position
of the feeder. -/
structure Poll where
  clock : Rat
  pausedTo : Rat
  position : Rat

namespace MotorRequest

variable (request : MotorRequest) (waitTime curPos : Rat)

/-- The round that ends the loop with a stop, if the clock does not end it before. -/
def movedAt : List Poll → Option Poll
  | [] => none
  | poll :: polls =>
    if poll.clock < waitTime then
      if |poll.position - curPos| > request.dis then some poll else movedAt polls
    else none

/-- What `CMD_canvas_motor_control` sends. It begins at the clock `start` and reads `now` behind
the loop. -/
def canvasMotorControl (connectStatus : Bool) (start curPos : Rat) (polls : List Poll)
    (now : Rat) : List FeederCommand :=
  let waitTime := start + request.timeout
  if !connectStatus || request.channel < 0 then []
  else if request.speed > 0 then
    [.filamentControl request.channel (if request.dis > 0 then 1500 else -1500) request.speed
      request.accel] ++
    (if (request.movedAt waitTime curPos polls).isSome then [.filamentStop request.channel]
      else []) ++
    if now > waitTime ∧ request.timeout ≠ 0 then [.filamentStop request.channel] else []
  else [.filamentStop request.channel]

/-- The loop ends with a stop in time only after the feeder has moved far enough. -/
def Covered (polls : List Poll) : Prop :=
  ∀ poll ∈ request.movedAt waitTime curPos polls,
    poll.pausedTo < waitTime → |poll.position - curPos| > |(request.dis : Rat)|

variable {request waitTime curPos}

theorem covered_of_nonneg (nonneg : 0 ≤ request.dis) : request.Covered waitTime curPos polls := by
  intro poll moved _
  induction polls with
  | nil => cases moved
  | cons first polls induction =>
    rw [movedAt] at moved
    split_ifs at moved with inTime far
    · cases moved
      rwa [abs_of_nonneg (Int.cast_nonneg nonneg)]
    · exact induction moved
    · cases moved

/-- A negative distance is passed at once. -/
theorem movedAt_of_neg (negative : request.dis < 0) :
    request.movedAt waitTime curPos polls = polls.head?.filter (·.clock < waitTime) := by
  cases polls with
  | nil => rfl
  | cons poll polls =>
    have far : (request.dis : Rat) < |poll.position - curPos| :=
      lt_of_lt_of_le (Int.cast_lt_zero.mpr negative) (abs_nonneg _)
    simp [movedAt, far, Option.filter]

/-- The clock behind a loop that has not seen the feeder move is not before the end. -/
theorem motor_stopped_iff (running : request.speed > 0) (limited : request.timeout > 0)
    (ended : request.movedAt (start + request.timeout) curPos polls = none →
      start + request.timeout ≤ now) :
    (.filamentStop request.channel ∈
        request.canvasMotorControl connectStatus start curPos polls now ∧
      request.Covered (start + request.timeout) curPos polls) ↔
    ((connectStatus ∧ 0 ≤ request.channel) ∧
      (request.movedAt (start + request.timeout) curPos polls = none →
        now ≠ start + request.timeout)) ∧
    (request.dis < 0 → ∀ poll ∈ polls.head?, poll.clock < start + request.timeout →
      poll.pausedTo < start + request.timeout →
        |poll.position - curPos| > |(request.dis : Rat)|) := by
  refine and_congr ?_ ?_
  · cases moved : request.movedAt (start + request.timeout) curPos polls with
    | none =>
      have late_iff := (ended moved).lt_iff_ne'
      simp [canvasMotorControl, moved, running, limited.ne', late_iff]
    | some poll => simp [canvasMotorControl, moved, running, limited.ne']
  · by_cases negative : request.dis < 0
    · simp [Covered, movedAt_of_neg, negative, Option.filter_eq_some_iff]
    · exact iff_of_true (covered_of_nonneg (Int.not_lt.mp negative)) (absurd · negative)

/-- In sixty seconds the feeder moves 70 of 100 mm. -/
theorem stopped_by_timeout :
    .filamentStop 0 ∈ (⟨0, 100, 50, 100, 60⟩ : MotorRequest).canvasMotorControl true 0 0
        [⟨0, 30, 40⟩, ⟨30, 59, 70⟩, ⟨60, 61, 70⟩] 61 ∧
      (⟨0, 100, 50, 100, 60⟩ : MotorRequest).Covered (0 + 60) 0
        [⟨0, 30, 40⟩, ⟨30, 59, 70⟩, ⟨60, 61, 70⟩] :=
  (motor_stopped_iff (by decide) (by decide) fun _ => by norm_num).mpr
    ⟨⟨⟨rfl, by decide⟩, fun _ => by norm_num⟩, by decide⟩

/-- A retraction of 100 mm is stopped before the feeder has moved. -/
theorem retraction_stopped_at_once :
    ¬(⟨0, -100, 50, 100, 60⟩ : MotorRequest).Covered (0 + 60) 0 [⟨0, 1, 0⟩] := by
  norm_num [Covered, movedAt]

end MotorRequest

end CentauriCarbon.Canvas
