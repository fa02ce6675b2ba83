import CentauriCarbon.Scheduler.TimerList
import CentauriCarbon.Stepping.Stepper
import Mathlib.Algebra.BigOperators.Group.List.Basic
import Mathlib.Data.List.Infix

/-! # The position of a stepper

A stepper counts the steps of a move when it loads the move. Its position carries the
direction in the sign, so that a change of direction negates it. What it reports is
nevertheless the net number of steps taken, in the middle of a move and after a stop too.
-/

namespace CentauriCarbon.Stepping

open List

open Scheduler (timerIsBefore)

def positionBias : UInt32 := 0x40000000

structure PulsedStepper extends Stepper where
  stepPin : Bool

def configStepper (singleSched : Bool) : PulsedStepper where
  waketime := 0
  timerActive := false
  interval := 0
  add := 0
  count := 0
  nextStepTime := 0
  dirPin := false
  position := -positionBias
  mq := []
  lastDir := false
  nextDir := false
  needReset := false
  singleSched
  steps := []
  stepPin := false

def Stepper.remaining (s : Stepper) : UInt32 :=
  if s.singleSched then s.count else s.count / 2

def stepperGetPosition (s : Stepper) : UInt32 :=
  let position := s.position - s.remaining
  if position &&& 0x80000000 ≠ 0 then -position else position

def reportedPosition (s : Stepper) : Int32 := (stepperGetPosition s - positionBias).toInt32

namespace PulsedStepper

variable (s : PulsedStepper)

def stepperStop : PulsedStepper :=
  { s with
    timerActive := false
    nextStepTime := 0
    waketime := 0
    position := -stepperGetPosition s.toStepper
    count := 0
    lastDir := false
    nextDir := false
    needReset := true
    dirPin := false
    -- In single-schedule mode either level of the step pin may be its resting one.
    stepPin := if s.singleSched then s.stepPin else false
    mq := [] }

def stepperShutdown : PulsedStepper := stepperStop { s with mq := [] }

def commandResetStepClock (waketime : UInt32) : PulsedStepper :=
  if s.count ≠ 0 then s.stepperShutdown
  else { s with nextStepTime := waketime, waketime, needReset := false }

def queueStep (interval count add : UInt32) : PulsedStepper :=
  match commandQueueStep s.toStepper interval count add with
  | some next => { s with toStepper := next }
  | none => s.stepperShutdown

def toggleStepPin : PulsedStepper :=
  { s with
    stepPin := !s.stepPin
    steps := if s.stepPin then s.steps else s.steps ++ [(s.dirPin, s.waketime)] }

/-- The part of `stepper_event_full` that schedules the next change of the step pin.
`maxLate` is `timer_from_us(1000)`. -/
def scheduleNext (maxLate minNextTime : UInt32) (s : PulsedStepper) : PulsedStepper :=
  if s.count &&& 1 ≠ 0 then { s with waketime := minNextTime }
  else if s.count ≠ 0 then
    let s := { s with
      nextStepTime := s.nextStepTime + s.interval
      interval := s.interval + signExtend s.add }
    if timerIsBefore s.nextStepTime minNextTime then { s with waketime := minNextTime }
    else { s with waketime := s.nextStepTime }
  else
    let loaded := stepperLoadNext s.toStepper
    let s := { s with toStepper := { loaded.1 with timerActive := loaded.2 } }
    if !loaded.2 || !timerIsBefore s.waketime minNextTime then s
    else if (s.waketime - minNextTime).toInt32 < (-maxLate).toInt32 then s.stepperShutdown
    else { s with waketime := minNextTime }

def stepperEventFull (maxLate pulseTicks curtime : UInt32) (s : PulsedStepper) : PulsedStepper :=
  scheduleNext maxLate (curtime + pulseTicks)
    { s.toggleStepPin with count := s.count - 1 }

end PulsedStepper

inductive PositionEvent where
  | setNextStepDir (dir : UInt32)
  | queueStep (interval count add : UInt32)
  | resetStepClock (clock : UInt32)
  /-- The timer is due; `curtime` is the time its callback reads. -/
  | timer (curtime : UInt32)
  | stop

def PulsedStepper.stepperEvent (maxLate pulseTicks curtime : UInt32) (s : PulsedStepper) :
    PulsedStepper :=
  if s.singleSched then
    { s with toStepper := stepperEventEdge s.toStepper, stepPin := !s.stepPin }
  else s.stepperEventFull maxLate pulseTicks curtime

def PulsedStepper.step (maxLate pulseTicks : UInt32) (s : PulsedStepper) :
    PositionEvent → PulsedStepper
  | .setNextStepDir dir => { s with toStepper := commandSetNextStepDir s.toStepper dir }
  | .queueStep interval count add => s.queueStep interval count add
  | .resetStepClock clock => s.commandResetStepClock clock
  | .timer curtime =>
    if s.timerActive then s.stepperEvent maxLate pulseTicks curtime else s
  | .stop => s.stepperStop

def PulsedStepper.run (maxLate pulseTicks : UInt32) (s : PulsedStepper)
    (events : List PositionEvent) : PulsedStepper :=
  events.foldl (PulsedStepper.step maxLate pulseTicks) s

/-! ## What the position counts -/

def netSteps (steps : List (Bool × UInt32)) : ℤ :=
  (steps.map fun step => if step.1 then 1 else -1).sum

theorem netSteps_append_singleton (steps : List (Bool × UInt32)) (dir : Bool) (time : UInt32) :
    netSteps (steps ++ [(dir, time)]) = netSteps steps + if dir then 1 else -1 := by
  simp [netSteps]

def stored (dir : Bool) (net : ℤ) : UInt32 :=
  if dir then UInt32.ofInt net + positionBias else -(UInt32.ofInt net + positionBias)

theorem neg_stored (dir : Bool) (net : ℤ) : -stored dir net = stored (!dir) net := by
  cases dir with
  | true => rfl
  | false => exact UInt32.neg_neg

theorem stored_step (dir : Bool) (net : ℤ) :
    stored dir (net + if dir then 1 else -1) = stored dir net + 1 := by
  cases dir with
  | true =>
    simp only [stored, if_true, UInt32.ofInt_add, UInt32.ofInt_one]
    grind
  | false =>
    simp only [stored, Bool.false_eq_true, if_false, UInt32.ofInt_add, UInt32.ofInt_neg_one]
    grind

structure PulsedStepper.Counts (s : PulsedStepper) : Prop where
  position_eq : s.position - s.remaining = stored s.dirPin (netSteps s.steps)
  running : s.timerActive = true → s.count ≠ 0
  nonzero : ∀ m ∈ s.mq, m.count ≠ 0
  pulse : s.singleSched = false → s.stepPin = decide (s.count.toNat % 2 = 1)

theorem toNat_double (count : UInt16) : (count.toUInt32 * 2).toNat = 2 * count.toNat := by
  have bound := count.toNat_lt
  change count.toNat * 2 % 2 ^ 32 = _
  omega

structure Loaded (s loaded : Stepper) (reschedule : Bool) : Prop where
  position_eq : loaded.position - loaded.remaining =
    if loaded.dirPin = s.dirPin then s.position else -s.position
  steps_eq : loaded.steps = s.steps
  singleSched_eq : loaded.singleSched = s.singleSched
  running : reschedule = true → loaded.count ≠ 0
  nonzero : ∀ m ∈ loaded.mq, m.count ≠ 0
  even : s.singleSched = false → loaded.count.toNat % 2 = 0

section

variable {s : Stepper}

theorem load_nil (queue : s.mq = []) : stepperLoadNext s = ({ s with count := 0 }, false) := by
  rw [stepperLoadNext, queue]

theorem load_cons (queue : s.mq = m :: rest) :
    (stepperLoadNext s).1.mq = rest ∧ (stepperLoadNext s).1.steps = s.steps ∧
      (stepperLoadNext s).1.singleSched = s.singleSched ∧
      (stepperLoadNext s).1.count =
        (if s.singleSched then m.count.toUInt32 else m.count.toUInt32 * 2) ∧
      (stepperLoadNext s).1.dirPin = (s.dirPin ^^ m.dir) ∧
      (stepperLoadNext s).1.position =
        (if m.dir then -s.position else s.position) + m.count.toUInt32 := by
  cases single : s.singleSched <;> cases dir : m.dir <;>
    simp [stepperLoadNext, queue, single, dir]

theorem load_remaining (queue : s.mq = m :: rest) :
    (stepperLoadNext s).1.remaining = m.count.toUInt32 := by
  rcases load_cons queue with ⟨-, -, single, count, -⟩
  rw [Stepper.remaining, count, single]
  cases s.singleSched with
  | true => rfl
  | false =>
    apply UInt32.toNat.inj
    rw [if_neg Bool.false_ne_true, if_neg Bool.false_ne_true, UInt32.toNat_div, toNat_double,
      UInt16.toNat_toUInt32]
    exact Nat.mul_div_cancel_left _ (by decide)

theorem stepperLoadNext_loaded (nonzero : ∀ m ∈ s.mq, m.count ≠ 0) :
    Loaded s (stepperLoadNext s).1 (stepperLoadNext s).2 := by
  cases queue : s.mq with
  | nil =>
    rw [load_nil queue]
    exact
      { position_eq := by simp [Stepper.remaining]
        steps_eq := rfl
        singleSched_eq := rfl
        running := nofun
        nonzero
        even := fun _ => rfl }
  | cons m rest =>
    rw [queue, forall_mem_cons] at nonzero
    rcases load_cons queue with ⟨mq, steps, single, count, dirPin, position⟩
    exact
      { position_eq := by
          rw [load_remaining queue, position, dirPin, UInt32.add_sub_cancel]
          cases m.dir <;> simp
        steps_eq := steps
        singleSched_eq := single
        running := by
          intro _
          rw [count]
          split
          · exact toUInt32_ne_zero nonzero.1
          · intro zero
            apply nonzero.1
            apply UInt16.toNat.inj
            have twice := toNat_double m.count
            rw [zero] at twice
            change 0 = 2 * m.count.toNat at twice
            change m.count.toNat = 0
            omega
        nonzero := mq ▸ nonzero.2
        even := by
          intro double
          rw [count, double]
          exact (congrArg (· % 2) (toNat_double m.count)).trans (Nat.mul_mod_right _ _) }

end

/-! ## Positions in range -/

def InRange (net : ℤ) : Prop := -2 ^ 30 < net ∧ net < 2 ^ 30

theorem and_top_ne_zero_iff (word : UInt32) : word &&& 0x80000000 ≠ 0 ↔ 2 ^ 31 ≤ word.toNat := by
  have bit : (word &&& 0x80000000).toBitVec =
      if word.toBitVec.getLsbD 31 then BitVec.twoPow 32 31 else 0#32 :=
    BitVec.and_twoPow word.toBitVec 31
  have high : word.toBitVec.getLsbD 31 = decide (2 ^ 31 ≤ word.toNat) :=
    BitVec.msb_eq_decide word.toBitVec
  rw [ne_eq, ← UInt32.toBitVec_inj, bit, high]
  by_cases top : 2 ^ 31 ≤ word.toNat
  · simp only [top, decide_true, if_true, iff_true]
    decide
  · simp only [top, decide_false, Bool.false_eq_true, if_false, iff_false, not_not]
    rfl

theorem toNat_biased (range : InRange net) :
    ((UInt32.ofInt net + positionBias).toNat : ℤ) = net + 2 ^ 30 := by
  have sum : UInt32.ofInt net + positionBias = UInt32.ofInt (net + 2 ^ 30) := by
    rw [UInt32.ofInt_add]
    rfl
  rcases range with ⟨above, below⟩
  rw [sum]
  exact UInt32.toNat_ofInt_of_lt (by omega) (by omega)

section

variable {s : Stepper} (range : InRange net)
  (position : s.position - s.remaining = stored s.dirPin net)
include range position

theorem stepperGetPosition_eq : stepperGetPosition s = UInt32.ofInt net + positionBias := by
  have value := toNat_biased range
  rcases range with ⟨above, below⟩
  rw [stepperGetPosition, position]
  cases s.dirPin with
  | true =>
    simp only [stored, if_true]
    rw [if_neg]
    rw [and_top_ne_zero_iff]
    omega
  | false =>
    simp only [stored, Bool.false_eq_true, if_false]
    rw [if_pos, UInt32.neg_neg]
    have size : UInt32.size = 2 ^ 32 := rfl
    rw [and_top_ne_zero_iff, UInt32.toNat_neg, size]
    omega

theorem reportedPosition_eq : (reportedPosition s).toInt = net := by
  rw [reportedPosition, stepperGetPosition_eq range position, UInt32.add_sub_cancel]
  have value : (UInt32.ofInt net).toBitVec.toNat = (net % 2 ^ 32).toNat := by
    change (UInt32.ofInt net).toNat = _
    rw [UInt32.ofInt, UInt32.toNat_ofNat']
    omega
  rcases range with ⟨above, below⟩
  change (UInt32.ofInt net).toBitVec.toInt = net
  rw [BitVec.toInt_eq_toNat_bmod, value, Int.bmod]
  omega

end

section

variable (s : PulsedStepper)

theorem load_steps (s : Stepper) : (stepperLoadNext s).1.steps = s.steps := by
  cases queue : s.mq with
  | nil => rw [load_nil queue]
  | cons m rest => exact (load_cons queue).2.1

theorem commandQueueStep_steps {s next : Stepper} {interval count add : UInt32}
    (queued : commandQueueStep s interval count add = some next) : next.steps = s.steps := by
  rw [commandQueueStep] at queued
  split at queued
  · cases queued
  split at queued
  · cases queued
    rfl
  split at queued
  · cases queued
    rfl
  · cases queued
    exact load_steps _

theorem stepperEventEdge_steps (s : Stepper) :
    (stepperEventEdge s).steps = s.steps ++ [(s.dirPin, s.waketime)] := by
  rw [stepperEventEdge]
  split
  · rfl
  · exact load_steps _

theorem scheduleNext_steps (maxLate minNextTime : UInt32) :
    (s.scheduleNext maxLate minNextTime).steps = s.steps := by
  rw [PulsedStepper.scheduleNext]
  dsimp only
  split
  · rfl
  split
  · split <;> rfl
  · split
    · exact load_steps _
    · split <;> exact load_steps _

theorem steps_grow (maxLate pulseTicks : UInt32) (event : PositionEvent) :
    s.steps <+: (s.step maxLate pulseTicks event).steps := by
  cases event with
  | setNextStepDir dir => exact prefix_refl _
  | queueStep interval count add =>
    change _ <+: (s.queueStep interval count add).steps
    rw [PulsedStepper.queueStep]
    split
    next next queued => exact ⟨[], by rw [append_nil, commandQueueStep_steps queued]⟩
    · exact prefix_refl _
  | resetStepClock clock =>
    change _ <+: (s.commandResetStepClock clock).steps
    rw [PulsedStepper.commandResetStepClock]
    split
    · exact prefix_refl _
    · exact prefix_refl _
  | timer curtime =>
    rw [PulsedStepper.step, PulsedStepper.stepperEvent]
    split
    · split
      · change _ <+: (stepperEventEdge s.toStepper).steps
        rw [stepperEventEdge_steps]
        exact prefix_append _ _
      · rw [PulsedStepper.stepperEventFull, scheduleNext_steps]
        change _ <+: if s.stepPin then s.steps else s.steps ++ [(s.dirPin, s.waketime)]
        split
        · exact prefix_refl _
        · exact prefix_append _ _
    · exact prefix_refl _
  | stop => exact prefix_refl _

end

theorem run_steps_grow (maxLate pulseTicks : UInt32) (events : List PositionEvent)
    (s : PulsedStepper) : s.steps <+: (s.run maxLate pulseTicks events).steps := by
  induction events generalizing s with
  | nil => exact prefix_refl _
  | cons event events induction =>
    exact (steps_grow s maxLate pulseTicks event).trans (induction _)

/-! ## Events -/

section

variable {s : PulsedStepper}

theorem Loaded.counts {t : PulsedStepper} (load : Loaded t.toStepper loaded reschedule)
    (settled : t.position = stored t.dirPin (netSteps t.steps))
    (low : t.singleSched = false → t.stepPin = false) : PulsedStepper.Counts
      { toStepper := { loaded with timerActive := reschedule }, stepPin := t.stepPin } where
  __ := load
  position_eq := by
    rw [load.steps_eq]
    change loaded.position - loaded.remaining = stored loaded.dirPin _
    rw [load.position_eq]
    by_cases same : loaded.dirPin = t.dirPin
    · rw [if_pos same, same, settled]
    · rw [if_neg same, settled, neg_stored, ← Bool.eq_not_of_ne same]
  pulse := by
    intro double
    rw [load.singleSched_eq] at double
    rw [low double, load.even double]
    rfl

variable (counts : s.Counts)
include counts

theorem PulsedStepper.Counts.edge (single : s.singleSched) : PulsedStepper.Counts
      { s with toStepper := stepperEventEdge s.toStepper, stepPin := !s.stepPin } := by
  have position := counts.position_eq
  rw [Stepper.remaining, if_pos single] at position
  have stepped : s.position - (s.count - 1) =
      stored s.dirPin (netSteps (s.steps ++ [(s.dirPin, s.waketime)])) := by
    rw [netSteps_append_singleton, stored_step, ← position]
    grind
  by_cases more : s.count - 1 ≠ 0
  · rw [stepperEventEdge_of_more more]
    exact
      { position_eq := by
          change s.position - (if s.singleSched then s.count - 1 else (s.count - 1) / 2) = _
          rw [if_pos single]
          exact stepped
        running := fun _ => more
        nonzero := counts.nonzero
        pulse := by
          intro double
          rw [single] at double
          cases double }
  · let t : PulsedStepper :=
      { s with steps := s.steps ++ [(s.dirPin, s.waketime)], stepPin := !s.stepPin }
    have settled : t.position = stored t.dirPin (netSteps t.steps) := by
      rw [not_not.mp more, UInt32.sub_zero] at stepped
      exact stepped
    rw [stepperEventEdge_of_last (not_not.mp more)]
    apply (stepperLoadNext_loaded (s := t.toStepper) counts.nonzero).counts settled
    intro double
    rw [single] at double
    cases double

/-- The steps of the current move once the step pin has changed its level. -/
theorem PulsedStepper.Counts.toggled (double : s.singleSched = false) (active : s.timerActive) :
    s.position - (s.count - 1) / 2 =
        stored s.dirPin (netSteps s.toggleStepPin.steps) ∧
      (!s.stepPin) = decide ((s.count - 1).toNat % 2 = 1) := by
  have running := counts.running active
  have positive : s.count.toNat ≠ 0 := fun zero => running (UInt32.toNat.inj zero)
  have less : (s.count - 1).toNat = s.count.toNat - 1 :=
    UInt32.toNat_sub_of_le _ _ (Nat.one_le_iff_ne_zero.mpr positive)
  have position := counts.position_eq
  rw [Stepper.remaining, double, if_neg Bool.false_ne_true] at position
  have pulse := counts.pulse double
  cases pin : s.stepPin with
  | true =>
    -- The pulse ends; its step has been counted before.
    have odd : s.count.toNat % 2 = 1 := by simpa [pin] using pulse
    have half : (s.count - 1) / 2 = s.count / 2 := by
      apply UInt32.toNat.inj
      rw [UInt32.toNat_div, UInt32.toNat_div, less]
      change (s.count.toNat - 1) / 2 = s.count.toNat / 2
      omega
    constructor
    · rw [half, position, PulsedStepper.toggleStepPin, pin]
      rfl
    · rw [less]
      simp only [Bool.not_true, Bool.false_eq, decide_eq_false_iff_not]
      omega
  | false =>
    have even : s.count.toNat % 2 = 0 := by
      rw [pin] at pulse
      simp only [Bool.false_eq, decide_eq_false_iff_not] at pulse
      omega
    have half : s.count / 2 = (s.count - 1) / 2 + 1 := by
      have bound := s.count.toNat_lt
      apply UInt32.toNat.inj
      rw [UInt32.toNat_add, UInt32.toNat_div, UInt32.toNat_div, less]
      change s.count.toNat / 2 = ((s.count.toNat - 1) / 2 + 1) % 2 ^ 32
      omega
    constructor
    · rw [PulsedStepper.toggleStepPin, pin]
      change _ = stored s.dirPin (netSteps (s.steps ++ [(s.dirPin, s.waketime)]))
      rw [netSteps_append_singleton, stored_step, ← position, half]
      grind
    · rw [less]
      simp only [Bool.not_false, Bool.true_eq, decide_eq_true_iff]
      omega

theorem PulsedStepper.Counts.settled (stopped : s.count = 0) :
    s.position = stored s.dirPin (netSteps s.steps) ∧
      (s.singleSched = false → s.stepPin = false) := by
  constructor
  · rw [← counts.position_eq, Stepper.remaining, stopped]
    cases s.singleSched with
    | true | false => exact (UInt32.sub_zero _).symm
  · intro double
    rw [counts.pulse double, stopped]
    rfl

section

variable (range : InRange (netSteps s.steps))
include range

theorem PulsedStepper.Counts.stop : s.stepperStop.Counts where
  position_eq := by
    have position := stepperGetPosition_eq range counts.position_eq
    change -stepperGetPosition s.toStepper - (if s.singleSched then 0 else 0 / 2) = _
    rw [position]
    cases s.singleSched with
    | true | false => exact UInt32.sub_zero _
  running := nofun
  nonzero := by simp [PulsedStepper.stepperStop]
  pulse := by
    intro double
    change s.singleSched = false at double
    change (if s.singleSched then s.stepPin else false) = decide (0 % 2 = 1)
    rw [double]
    rfl

theorem PulsedStepper.Counts.shutdown : s.stepperShutdown.Counts :=
  PulsedStepper.Counts.stop (s := { s with mq := [] })
    { counts with nonzero := by simp } range

theorem PulsedStepper.Counts.queueStep (interval count add : UInt32) :
    (s.queueStep interval count add).Counts := by
  let m := newMove s.toStepper interval count add
  rw [PulsedStepper.queueStep, commandQueueStep]
  by_cases invalid : m.count = 0
  · rw [if_pos invalid]
    exact counts.shutdown range
  rw [if_neg invalid]
  have nonzero : ∀ other ∈ (pushMove s.toStepper m).mq, other.count ≠ 0 :=
    forall_mem_append.mpr ⟨counts.nonzero, forall_mem_singleton.mpr invalid⟩
  by_cases moving : s.count ≠ 0
  · rw [if_pos moving]
    exact { counts with nonzero }
  rw [if_neg moving]
  by_cases needReset : s.needReset
  · rw [if_pos needReset]
    exact counts
  rcases counts.settled (not_not.mp moving) with ⟨settled, low⟩
  have load := stepperLoadNext_loaded nonzero
  have scheduled : (stepperLoadNext (pushMove s.toStepper m)).2 := by
    rw [stepperLoadNext]
    cases queue : (pushMove s.toStepper m).mq with
    | nil => exact absurd queue (by simp [pushMove])
    | cons first rest => rfl
  have loaded := Loaded.counts (t := { s with toStepper := pushMove s.toStepper m })
    load settled low
  rw [scheduled] at loaded
  rw [if_neg needReset]
  exact loaded

end

omit counts in
theorem PulsedStepper.scheduleNext_of_eq (finished : s.count = 0)
    (settled : s.position = stored s.dirPin (netSteps s.steps)) (low : s.stepPin = false)
    (nonzero : ∀ m ∈ s.mq, m.count ≠ 0) (range : InRange (netSteps s.steps))
    (maxLate minNextTime : UInt32) : (s.scheduleNext maxLate minNextTime).Counts := by
  have load := stepperLoadNext_loaded nonzero
  have loaded := load.counts settled fun _ => low
  have loadedRange : InRange (netSteps (stepperLoadNext s.toStepper).1.steps) := by
    rw [load.steps_eq]
    exact range
  rw [PulsedStepper.scheduleNext, if_neg, if_neg]
  · dsimp only
    split
    · exact loaded
    · split
      · exact loaded.shutdown loadedRange
      · exact { loaded with }
  · exact not_not.mpr finished
  · rw [finished]
    decide

theorem PulsedStepper.Counts.full (double : s.singleSched = false) (active : s.timerActive)
    (maxLate pulseTicks curtime : UInt32) (range : InRange (netSteps s.toggleStepPin.steps)) :
    (s.stepperEventFull maxLate pulseTicks curtime).Counts := by
  rcases counts.toggled double active with ⟨position, pulse⟩
  by_cases finished : s.count - 1 = 0
  · rw [finished] at position pulse
    exact PulsedStepper.scheduleNext_of_eq (s := { s.toggleStepPin with count := s.count - 1 })
      finished ((UInt32.sub_zero _).symm.trans position) pulse counts.nonzero range _ _
  have going : PulsedStepper.Counts { s.toggleStepPin with count := s.count - 1 } :=
    { position_eq := by
        change s.position - (if s.singleSched then s.count - 1 else (s.count - 1) / 2) = _
        rw [double, if_neg Bool.false_ne_true]
        exact position
      running := fun _ => finished
      nonzero := counts.nonzero
      pulse := fun _ => pulse }
  rw [PulsedStepper.stepperEventFull, PulsedStepper.scheduleNext]
  split
  · exact { going with }
  dsimp only
  split
  · exact { going with }
  · exact { going with }

theorem PulsedStepper.Counts.step (event : PositionEvent)
    (range : ∀ taken, taken <+: (s.step maxLate pulseTicks event).steps →
      InRange (netSteps taken)) : (s.step maxLate pulseTicks event).Counts := by
  have now := range s.steps (steps_grow s maxLate pulseTicks event)
  cases event with
  | setNextStepDir dir => exact { counts with }
  | queueStep interval count add => exact counts.queueStep now interval count add
  | resetStepClock clock =>
    change (s.commandResetStepClock clock).Counts
    rw [PulsedStepper.commandResetStepClock]
    split
    · exact counts.shutdown now
    · exact { counts with }
  | timer curtime =>
    rw [PulsedStepper.step, PulsedStepper.stepperEvent] at range ⊢
    by_cases active : s.timerActive
    · rw [if_pos active] at range ⊢
      cases single : s.singleSched with
      | true =>
        exact counts.edge single
      | false =>
        simp only [single, Bool.false_eq_true, if_false] at range ⊢
        apply counts.full single active
        apply range
        rw [PulsedStepper.stepperEventFull, scheduleNext_steps]
    · rw [if_neg active]
      exact counts
  | stop => exact counts.stop now

theorem PulsedStepper.Counts.run
    (range : ∀ taken, taken <+: (s.run maxLate pulseTicks events).steps →
      InRange (netSteps taken)) : (s.run maxLate pulseTicks events).Counts := by
  induction events generalizing s with
  | nil => exact counts
  | cons event events induction =>
    apply induction _ range
    apply counts.step event
    intro taken isPrefix
    exact range taken (isPrefix.trans (run_steps_grow maxLate pulseTicks events _))

end

theorem configStepper_counts (singleSched : Bool) : (configStepper singleSched).Counts where
  position_eq := by cases singleSched <;> rfl
  running := nofun
  nonzero := by simp [configStepper]
  pulse := fun _ => rfl

/-- Whatever commands, timer events and stops a stepper has seen since it was configured, in
either mode, it reports the net number of the steps it has taken. -/
theorem position_net_of_steps (singleSched : Bool) (maxLate pulseTicks : UInt32)
    (events : List PositionEvent)
    (range : ∀ taken,
      taken <+: ((configStepper singleSched).run maxLate pulseTicks events).steps →
      -2 ^ 30 < netSteps taken ∧ netSteps taken < 2 ^ 30) :
    let final := (configStepper singleSched).run maxLate pulseTicks events
    (reportedPosition final.toStepper).toInt = netSteps final.steps := by
  have counts := (configStepper_counts singleSched).run range
  exact reportedPosition_eq (range _ (prefix_refl _)) counts.position_eq

def stoppedInPulse : List PositionEvent :=
  [.setNextStepDir 1, .queueStep 100 5 0, .timer 100, .timer 110, .timer 200, .timer 210,
    .timer 300, .stop, .resetStepClock 1000, .queueStep 100 1 0, .timer 1100]

theorem position_net_of_stopped_pulse :
    netSteps ((configStepper false).run 1000 10 stoppedInPulse).steps = 2 ∧
      (reportedPosition ((configStepper false).run 1000 10 stoppedInPulse).toStepper).toInt =
        netSteps ((configStepper false).run 1000 10 stoppedInPulse).steps := by
  refine ⟨by decide +kernel, position_net_of_steps false 1000 10 stoppedInPulse ?_⟩
  have checked : ∀ taken ∈ ((configStepper false).run 1000 10 stoppedInPulse).steps.inits,
      -2 ^ 30 < netSteps taken ∧ netSteps taken < 2 ^ 30 := by decide +kernel
  intro taken isPrefix
  exact checked taken ((mem_inits _ _).mpr isPrefix)

end CentauriCarbon.Stepping
