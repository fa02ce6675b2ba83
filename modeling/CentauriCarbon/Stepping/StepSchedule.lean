import CentauriCarbon.Stepping.StepCompress

/-! # What step messages mean

The abstract side of step generation. A request is a direction and a clock; a planned
step is a request with the time its move gives it. The meaning of a message is the
motion it adds: a `queue_step` continues from the time of the last step, a
`set_next_step_dir` turns the steps that follow.
-/

namespace CentauriCarbon.Stepping

/-- Step clocks stay `CLOCK_DIFF_MAX` below the end of the 64-bit range. -/
def clockLimit : Nat := 2 ^ 64 - 0x30000000

structure StepRequest where
  dir : Bool
  clock : Nat
  deriving DecidableEq

structure PlannedStep where
  dir : Bool
  clock : Nat
  time : Nat

def PlannedStep.request (step : PlannedStep) : StepRequest :=
  ⟨step.dir, step.clock⟩

/-- The steps of one move lie in their windows, the first one after `previous`. -/
def InWindows (maxError : Nat) (previous : Nat) : List PlannedStep → Prop
  | [] => True
  | step :: steps =>
    previous < step.clock ∧
      step.clock - min maxError ((step.clock - previous) / 2) ≤ step.time ∧
      step.time ≤ step.clock ∧ InWindows maxError step.clock steps

def lastTime (last : Nat) (move : List PlannedStep) : Nat :=
  (move.getLast?.map PlannedStep.time).getD last

/-- Every step of every move lies in its window; the first step of a move is measured
from the time of the step before it. -/
def Tracks (maxError : Nat) : Nat → List (List PlannedStep) → Prop
  | _, [] => True
  | last, move :: moves =>
    InWindows maxError last move ∧ Tracks maxError (lastTime last move) moves

theorem InWindows.lastTime_lt (inWindows : InWindows maxError previous move) (low : last < bound)
    (under : ∀ step ∈ move, step.clock < bound) : lastTime last move < bound := by
  induction move generalizing previous last with
  | nil => exact low
  | cons step move induction =>
    have here := under step List.mem_cons_self
    have onTime := inWindows.2.2.1
    have rest := induction inWindows.2.2.2 (show step.time < bound by omega) (by
      intro other member
      exact under other (List.mem_cons_of_mem _ member))
    rw [lastTime] at rest ⊢
    rw [List.getLast?_cons]
    cases ended : move.getLast? with
    | none =>
      change step.time < bound
      omega
    | some final =>
      rw [ended] at rest
      exact rest

theorem Tracks.lastTime_lt (tracks : Tracks maxError last moves) (low : last < bound)
    (under : ∀ step ∈ moves.flatten, step.clock < bound) : moves.foldl lastTime last < bound := by
  induction moves generalizing last with
  | nil => exact low
  | cons move moves induction =>
    apply induction tracks.2
    · apply tracks.1.lastTime_lt low
      intro step member
      exact under step (List.mem_append_left _ member)
    · intro step member
      exact under step (List.mem_append_right _ member)

theorem Tracks.append (leftTracks : Tracks maxError last left)
    (rightTracks : Tracks maxError (left.foldl lastTime last) right) :
    Tracks maxError last (left ++ right) := by
  induction left generalizing last with
  | nil => exact rightTracks
  | cons move left induction =>
    exact ⟨leftTracks.1, induction leftTracks.2 rightTracks⟩

/-- The step that may still be rolled back, after an operation, and the request that the
operation lets through. -/
def filterStep (sdsFilterTicks : Int) :
    Option (Bool × UInt64) → StepOp → Option (Bool × UInt64) × List StepRequest
  | none, .append sdir stepClock => (some (sdir, stepClock), [])
  | some (dir, clock), .append sdir stepClock =>
    if rollsBack sdsFilterTicks dir clock sdir stepClock then (none, [])
    else (some (sdir, stepClock), [⟨dir, clock.toNat⟩])
  | none, .commit => (none, [])
  | some (dir, clock), .commit => (none, [⟨dir, clock.toNat⟩])
  | none, .flush _ => (none, [])
  | some (dir, clock), .flush moveClock =>
    if moveClock ≥ clock then (none, [⟨dir, clock.toNat⟩]) else (some (dir, clock), [])

/-- The appended steps that are not rolled back, as far as they are let through. -/
def survivors (sdsFilterTicks : Int) : Option (Bool × UInt64) → List StepOp → List StepRequest
  | _, [] => []
  | pending, op :: ops =>
    (filterStep sdsFilterTicks pending op).2 ++
      survivors sdsFilterTicks (filterStep sdsFilterTicks pending op).1 ops

def pendingAfter (sdsFilterTicks : Int) (pending : Option (Bool × UInt64))
    (ops : List StepOp) : Option (Bool × UInt64) :=
  ops.foldl (fun pending op => (filterStep sdsFilterTicks pending op).1) pending

theorem survivors_append (sdsFilterTicks : Int) (pending : Option (Bool × UInt64))
    (left right : List StepOp) : survivors sdsFilterTicks pending (left ++ right) =
      survivors sdsFilterTicks pending left ++
        survivors sdsFilterTicks (pendingAfter sdsFilterTicks pending left) right := by
  induction left generalizing pending with
  | nil => rfl
  | cons op left induction =>
    rw [List.cons_append, survivors, survivors, induction, List.append_assoc]
    rfl

/-- Is the clock of an appended step above `floor`, and `CLOCK_DIFF_MAX` below the end of
the 64-bit range? -/
def StepOp.Above (floor : Nat) : StepOp → Prop
  | .append _ stepClock => floor < stepClock.toNat ∧ stepClock.toNat < clockLimit
  | .commit => True
  | .flush _ => True

def StepOp.floor (floor : Nat) : StepOp → Nat
  | .append _ stepClock => stepClock.toNat
  | .commit => floor
  | .flush _ => floor

def Ascending (floor : Nat) : List StepOp → Prop
  | [] => True
  | op :: ops => op.Above floor ∧ Ascending (op.floor floor) ops

structure Motion where
  time : UInt32
  dir : Bool
  steps : List (Bool × UInt32)

def Motion.advance (add : UInt32) : Nat → UInt32 → Motion → Motion
  | 0, _, motion => motion
  | count + 1, interval, motion =>
    Motion.advance add count (interval + add)
      { motion with
        time := motion.time + interval
        steps := motion.steps ++ [(motion.dir, motion.time + interval)] }

/-- The arguments of `queue_step` are `%u`, `%hu` and `%hi`. -/
def Motion.execute (motion : Motion) : StepCommand → Motion
  | .queueStep interval count add =>
    motion.advance (UInt32.ofInt add.toUInt16.toInt16.toInt) count.toUInt16.toNat interval
  | .setNextStepDir dir => { motion with dir := dir ≠ 0 }
  | .other _ => motion

def Motion.executeAll (motion : Motion) (commands : List StepCommand) : Motion :=
  commands.foldl Motion.execute motion

def PlannedStep.emitted (invertSdir : Bool) (step : PlannedStep) : Bool × UInt32 :=
  (step.dir ^^ invertSdir, UInt32.ofNat step.time)

def StepMessage.stepCount (message : StepMessage) : Option Nat :=
  match message.command with
  | .queueStep _ count _ => some count.toUInt16.toNat
  | .setNextStepDir _ => none
  | .other _ => none

def StepCommand.Executable : StepCommand → Prop
  | .queueStep _ count _ => count.toUInt16 ≠ 0
  | .setNextStepDir _ => True
  | .other _ => True

end CentauriCarbon.Stepping
