import CentauriCarbon.Stepping.HostRun
import CentauriCarbon.Stepping.Stepper

/-! # From requested steps to steps taken

The host's messages, executed by the stepper in any interleaving with its timer, take
exactly the steps that were requested and not rolled back, each within its window.
-/

namespace CentauriCarbon.Stepping

structure Stepper.WaitsAt (s : Stepper) (clock : UInt64) : Prop where
  consistent : s.Consistent
  inactive : s.timerActive = false
  waketime : s.waketime = clock.toUInt32

theorem Stepper.WaitsAt.facing {s : Stepper} {sc : StepCompress}
    (waits : s.WaitsAt sc.lastStepClock) (reset : sc.IsReset) :
    Facing sc.output s.outlook ∧ s.outlook.steps = s.steps := by
  have inactive : ¬ s.timerActive := by
    rw [waits.inactive]
    exact Bool.false_ne_true
  have stopped : s.count = 0 := by
    by_contra running
    exact inactive (waits.consistent.active.mpr running)
  refine ⟨⟨?_, ?_⟩, outlook_of_inactive waits.consistent inactive⟩
  · change s.queued.time = sc.lastStepClock.toUInt32
    rw [← waits.waketime, Stepper.queued, waits.consistent.idle stopped, List.foldl_nil,
      Stepper.current, if_neg inactive]
  intro dir known
  change sc.sdir = some dir at known
  rw [reset.sdir] at known
  exact absurd known.symm (Option.some_ne_none _)

theorem requested_steps_taken (sc : StepCompress) (s : Stepper) (ops : List StepOp)
    (reset : sc.IsReset) (bounded : sc.lastStepClock.toNat < clockLimit)
    (accurate : sc.maxError.toNat ≤ 8192) (ascending : Ascending sc.lastStepClock.toNat ops)
    (roomy : RoomyRun sc (ops ++ [.flush uint64Max])) (waits : s.WaitsAt sc.lastStepClock) :
    ∃ final messages moves,
      applyAll sc (ops ++ [.flush uint64Max]) = .done final ∧
      final.msgQueue = sc.msgQueue ++ messages ∧
      messages.filterMap StepMessage.stepCount = moves.map List.length ∧
      moves.flatten.map PlannedStep.request =
        survivors sc.sdsFilterTicks none (ops ++ [.flush uint64Max]) ∧
      Tracks sc.maxError.toNat sc.lastStepClock.toNat moves ∧
      ∀ events, events.filterMap StepperEvent.command? = messages.map StepMessage.command →
        ∃ later, runEvents stepperStep s events = some later ∧
          later.steps <+: s.steps ++ moves.flatten.map (PlannedStep.emitted sc.invertSdir) ∧
          ∀ count, moves.flatten.length ≤ count →
            ∃ last, runEvents stepperStep later (List.replicate count .timer) = some last ∧
              last.steps = s.steps ++ moves.flatten.map (PlannedStep.emitted sc.invertSdir) := by
  rcases applyAll_flush (reset.ready bounded accurate) ops ascending roomy with
    ⟨final, _, run, performs⟩
  rcases performs.serves with ⟨moves, emits, split, _⟩
  rcases emits.messages with ⟨messages, queue, means⟩
  rcases waits.facing reset with ⟨facing, taken⟩
  rw [pendingStep_of_eq reset.nextStepClock, List.append_nil, List.nil_append] at split
  refine ⟨final, messages, moves, run, queue, means.counts, split, emits.tracks, ?_⟩
  intro events same
  have executable : ∀ command ∈ events.filterMap StepperEvent.command?, command.Executable := by
    intro command member
    rw [same] at member
    rcases List.mem_map.mp member with ⟨message, sent, rfl⟩
    exact means.executable message sent
  rcases stepper_run waits.consistent events executable with
    ⟨later, ran, consistent, outlook, begins⟩
  have expected : later.outlook.steps =
      s.steps ++ moves.flatten.map (PlannedStep.emitted sc.invertSdir) := by
    rw [outlook, same, means.steps _ facing, taken]
    rfl
  refine ⟨later, ran, ?_, ?_⟩
  · rw [← expected]
    exact steps_grow_outlook later
  intro count enough
  have drained : later.outlook.steps.length ≤ later.steps.length + count := by
    have soFar := begins.length_le
    rw [expected, List.length_append, List.length_map]
    omega
  rcases stepper_drains consistent count drained with ⟨last, lastRan, all⟩
  exact ⟨last, lastRan, all.trans expected⟩

def idleStepper (clock : UInt64) : Stepper where
  waketime := clock.toUInt32
  timerActive := false
  interval := 0
  add := 0
  count := 0
  nextStepTime := clock.toUInt32
  dirPin := false
  position := 0xc0000000
  mq := []
  lastDir := false
  nextDir := false
  needReset := false
  singleSched := true
  steps := []

def sampleOps : List StepOp :=
  [.append true 1100, .append true 1190, .append true 1270, .append true 1340, .commit,
    .append true 1400, .append false 1405, .flush 1300, .append false 3000, .commit,
    .append false 0x100000000]

theorem requested_steps_taken_sample :
    ∃ (final : StepCompress) (moves : List (List PlannedStep)),
      applyAll { stepcompressAlloc 10 50 with lastStepClock := 1000 }
        (sampleOps ++ [.flush uint64Max]) = .done final ∧
      Tracks 10 1000 moves ∧
      moves.flatten.map PlannedStep.request =
        [⟨true, 1100⟩, ⟨true, 1190⟩, ⟨true, 1270⟩, ⟨true, 1340⟩, ⟨false, 3000⟩,
          ⟨false, 0x100000000⟩] := by
  rcases requested_steps_taken { stepcompressAlloc 10 50 with lastStepClock := 1000 }
    (idleStepper 1000) sampleOps ⟨rfl, rfl, rfl⟩ (by decide) (by decide)
    (by simp [Ascending, StepOp.Above, StepOp.floor, sampleOps, clockLimit]) (by decide +kernel)
    ⟨⟨rfl, rfl, by simp [idleStepper], fun _ => rfl, by simp [idleStepper], rfl⟩, rfl, rfl⟩ with
    ⟨final, _, moves, run, _, _, requests, tracks, _⟩
  exact ⟨final, moves, run, tracks, requests.trans (by decide +kernel)⟩

/-- One step at once, the others after a pause of nearly half a `CLOCK_DIFF_MAX`. -/
def crowdClock (n : Nat) : UInt64 := UInt64.ofNat (if n = 0 then 2 else 400000000 + n)

/-- The first `n` steps are in the queue, the next one is pending. -/
def crowded (n : Nat) : StepCompress :=
  { stepcompressAlloc 25 10 with
    lastStepClock := 1
    queue := (List.range n).map fun k => (crowdClock k).toUInt32
    queueSize := queueStartSize
    msgQueue := [⟨.setNextStepDir 1, 0, 1⟩]
    sdir := some true
    nextStepClock := crowdClock n
    nextStepDir := true }

/-- As long as there is room, a near step goes to the end of the queue. -/
theorem append_crowded (inside : n < 1024) (clock : UInt64) :
    stepcompressAppend (crowded n) true clock =
      .done { crowded (n + 1) with nextStepClock := clock } := by
  have clock_eq : (crowdClock n).toNat = if n = 0 then 2 else 400000000 + n := by
    rw [crowdClock, UInt64.toNat_ofNat']
    split
    · rfl
    · omega
  have nonzero : (crowded n).nextStepClock ≠ 0 := by
    intro zero
    change crowdClock n = 0 at zero
    rw [zero] at clock_eq
    change 0 = _ at clock_eq
    split at clock_eq <;> omega
  have facing : ¬(crowded n).sdir ≠ some (crowded n).nextStepDir := not_not.mpr rfl
  have near : ¬(crowded n).nextStepClock ≥ (crowded n).lastStepClock + clockDiffMax := by
    rw [ge_iff_le, UInt64.le_iff_toNat_le]
    change ¬((1 : UInt64) + clockDiffMax).toNat ≤ (crowdClock n).toNat
    rw [clock_eq, show ((1 : UInt64) + clockDiffMax).toNat = 0x30000001 by decide]
    split <;> omega
  have room : ¬(crowded n).queueBase + (crowded n).queue.length ≥ (crowded n).queueSize := by
    simpa [crowded, stepcompressAlloc, queueStartSize] using inside
  rw [stepcompressAppend, if_pos nonzero, if_neg (by simp [rollsBack, crowded]), queueAppend,
    if_neg facing, Outcome.done_bind, if_neg near, if_neg room, Outcome.done_bind]
  simp [crowded, pushStep, List.range_succ]

theorem applyAll_crowded (count : Nat) (inside : n + count ≤ 1024) :
    applyAll (crowded n) ((List.range' (n + 1) count).map fun k => .append true (crowdClock k)) =
      .done (crowded (n + count)) := by
  induction count generalizing n with
  | zero => rfl
  | succ count induction =>
    rw [List.range'_succ, List.map_cons, applyAll, StepOp.apply, append_crowded (by omega),
      Outcome.done_bind, show n + (count + 1) = n + 1 + count by omega]
    exact induction (by omega)

def crowdClocks : List UInt64 := (List.range 1024).map crowdClock ++ [1 + clockDiffMax]

/-- The queue is full when a far step comes. The flush takes only the first step out of it,
and the far step is written behind the end of the array. -/
theorem step_written_behind_queue : ({ stepcompressAlloc 25 10 with
      lastStepClock := 1 } : StepCompress).IsReset ∧
    (1 :: crowdClocks).IsChain (· < ·) ∧
    ∃ state, applyAll { stepcompressAlloc 25 10 with lastStepClock := 1 }
      (crowdClocks.map (.append true ·) ++ [.commit]) = .overran state := by
  refine ⟨⟨rfl, rfl, rfl⟩, by decide +kernel, ?_⟩
  have split : crowdClocks.map (StepOp.append true ·) ++ [.commit] =
      [.append true (crowdClock 0), .append true (crowdClock 1)] ++
        ((List.range' 2 1022).map (fun k => .append true (crowdClock k)) ++
          [.append true (1 + clockDiffMax), .commit]) := by
    rw [crowdClocks, List.range_eq_range', List.range'_succ, List.range'_succ]
    simp
  have start : applyAll { stepcompressAlloc 25 10 with lastStepClock := 1 }
      [.append true (crowdClock 0), .append true (crowdClock 1)] = .done (crowded 1) := by
    decide +kernel
  rw [split, applyAll_append, start, Outcome.done_bind, applyAll_append,
    applyAll_crowded _ (by decide), Outcome.done_bind, applyAll, StepOp.apply,
    append_crowded (by decide), Outcome.done_bind]
  exact ⟨_, (by decide +kernel : applyAll { crowded 1024 with nextStepClock := 1 + clockDiffMax }
    [.commit] = .overran (applyAll { crowded 1024 with nextStepClock := 1 + clockDiffMax }
      [.commit]).state)⟩

end CentauriCarbon.Stepping
