import CentauriCarbon.Foundation.EventRun
import CentauriCarbon.Stepping.StepSchedule

/-! # The stepper of the micro-controller

`stepper.c` for steps on each edge: moves are queued by commands and taken by a timer.
The step pin is modelled by the steps it takes, each with the level of the direction pin
and the wake time of the timer. `HAVE_SINGLE_SCHEDULE` and `SF_SINGLE_SCHED` are one flag,
and the memory of a move is not bounded here.
-/

namespace CentauriCarbon.Stepping

open List

structure StepperMove where
  interval : UInt32
  add : Int16
  count : UInt16
  /-- `MF_DIR`: the move changes the direction. -/
  dir : Bool

structure Stepper where
  waketime : UInt32
  /-- Is the timer scheduled? -/
  timerActive : Bool
  interval : UInt32
  add : Int16
  count : UInt32
  nextStepTime : UInt32
  dirPin : Bool
  position : UInt32
  mq : List StepperMove
  lastDir : Bool
  nextDir : Bool
  needReset : Bool
  singleSched : Bool
  steps : List (Bool × UInt32)

def signExtend (add : Int16) : UInt32 := UInt32.ofInt add.toInt

variable (s : Stepper)

def stepperLoadNext : Stepper × Bool :=
  match s.mq with
  | [] => ({ s with count := 0 }, false)
  | m :: rest =>
    let s := { s with mq := rest, add := m.add, interval := m.interval + signExtend m.add }
    let s :=
      if s.singleSched then
        { s with waketime := s.waketime + m.interval, count := m.count.toUInt32 }
      else
        { s with
          nextStepTime := s.nextStepTime + m.interval
          waketime := s.nextStepTime + m.interval
          count := m.count.toUInt32 * 2 }
    let s :=
      if m.dir then
        { s with position := -s.position + m.count.toUInt32, dirPin := !s.dirPin }
      else
        { s with position := s.position + m.count.toUInt32 }
    (s, true)

def stepperEventEdge : Stepper :=
  let s := { s with steps := s.steps ++ [(s.dirPin, s.waketime)] }
  let count := s.count - 1
  if count ≠ 0 then
    { s with count, waketime := s.waketime + s.interval, interval := s.interval + signExtend s.add }
  else
    let loaded := stepperLoadNext s
    { loaded.1 with timerActive := loaded.2 }

def newMove (interval count add : UInt32) : StepperMove where
  interval
  count := count.toUInt16
  add := add.toUInt16.toInt16
  dir := s.lastDir ≠ s.nextDir

def pushMove (m : StepperMove) : Stepper :=
  { s with lastDir := s.nextDir, mq := s.mq ++ [m] }

def commandQueueStep (interval count add : UInt32) : Option Stepper :=
  let m := newMove s interval count add
  if m.count = 0 then none
  else if s.count ≠ 0 then some (pushMove s m)
  else if s.needReset then some s
  else some { (stepperLoadNext (pushMove s m)).1 with timerActive := true }

def commandSetNextStepDir (dir : UInt32) : Stepper :=
  { s with nextDir := dir ≠ 0 }

inductive StepperEvent where
  | command (command : StepCommand)
  | timer

def stepperStep : StepperEvent → Option Stepper
  | .command (.queueStep interval count add) => commandQueueStep s interval count add
  | .command (.setNextStepDir dir) => some (commandSetNextStepDir s dir)
  | .command (.other _) => some s
  | .timer => some (if s.timerActive then stepperEventEdge s else s)

/-! ## The motion ahead -/

def StepperMove.run (motion : Motion) (m : StepperMove) : Motion :=
  Motion.advance (signExtend m.add) m.count.toNat m.interval
    { motion with dir := motion.dir ^^ m.dir }

def Stepper.current : Motion :=
  if s.timerActive then
    Motion.advance (signExtend s.add) (s.count.toNat - 1) s.interval
      ⟨s.waketime, s.dirPin, s.steps ++ [(s.dirPin, s.waketime)]⟩
  else ⟨s.waketime, s.dirPin, s.steps⟩

def Stepper.queued : Motion := s.mq.foldl StepperMove.run s.current

/-- The motion that the commands executed so far amount to. -/
def Stepper.outlook : Motion :=
  { s.queued with dir := s.nextDir }

structure Stepper.Consistent (s : Stepper) : Prop where
  singleSched : s.singleSched = true
  needReset : s.needReset = false
  active : s.timerActive = true ↔ s.count ≠ 0
  idle : s.count = 0 → s.mq = []
  nonzero : ∀ m ∈ s.mq, m.count ≠ 0
  lastDir : s.queued.dir = s.lastDir

theorem Motion.advance_dir (add : UInt32) (count : Nat) (interval : UInt32) (motion : Motion) :
    (motion.advance add count interval).dir = motion.dir := by
  induction count generalizing interval motion with
  | zero => rfl
  | succ count induction =>
    rw [Motion.advance, induction]

theorem Motion.advance_prefix (add : UInt32) (count : Nat) (interval : UInt32)
    (motion : Motion) : motion.steps <+: (motion.advance add count interval).steps := by
  induction count generalizing interval motion with
  | zero => exact prefix_refl _
  | succ count induction =>
    apply IsPrefix.trans _ (induction _ _)
    exact prefix_append _ _

variable {s : Stepper}

theorem toUInt32_ne_zero {count : UInt16} (nonzero : count ≠ 0) : count.toUInt32 ≠ 0 := by
  intro zero
  apply nonzero
  apply UInt16.toNat.inj
  rw [← UInt16.toNat_toUInt32, zero]
  rfl

theorem load_eq (singleSched : s.singleSched) (queue : s.mq = m :: rest) :
    ∃ position, stepperLoadNext s =
      ({ s with
        mq := rest
        add := m.add
        interval := m.interval + signExtend m.add
        waketime := s.waketime + m.interval
        count := m.count.toUInt32
        dirPin := s.dirPin ^^ m.dir
        position }, true) := by
  rw [stepperLoadNext, queue]
  dsimp only
  rw [if_pos singleSched]
  cases m.dir with
  | true =>
    rw [if_pos rfl, Bool.xor_true]
    exact ⟨_, rfl⟩
  | false =>
    rw [if_neg Bool.false_ne_true, Bool.xor_false]
    exact ⟨_, rfl⟩

theorem load_consistent (singleSched : s.singleSched) (needReset : s.needReset = false)
    (queue : s.mq = m :: rest) (nonzero : ∀ m ∈ s.mq, m.count ≠ 0)
    (lastDir : (s.mq.foldl StepperMove.run ⟨s.waketime, s.dirPin, s.steps⟩).dir = s.lastDir) :
    ∃ loaded, stepperLoadNext s = (loaded, true) ∧
      ({ loaded with timerActive := true } : Stepper).queued =
        s.mq.foldl StepperMove.run ⟨s.waketime, s.dirPin, s.steps⟩ ∧
      ({ loaded with timerActive := true } : Stepper).Consistent ∧
      loaded.nextDir = s.nextDir ∧ loaded.steps = s.steps := by
  have first : m.count ≠ 0 := nonzero m (by rw [queue]; exact mem_cons_self)
  have running := toUInt32_ne_zero first
  have positive : m.count.toNat = m.count.toNat - 1 + 1 := by
    have ne : m.count.toNat ≠ 0 := fun zero => first (UInt16.toNat.inj zero)
    omega
  rcases load_eq singleSched queue with ⟨position, loaded⟩
  rw [queue, foldl_cons, StepperMove.run, positive, Motion.advance] at lastDir ⊢
  rw [queue] at nonzero
  refine ⟨_, loaded, rfl, ⟨singleSched, needReset, ?_, ?_, (forall_mem_cons.mp nonzero).2, lastDir⟩,
    rfl, rfl⟩
  · exact ⟨fun _ => running, fun _ => rfl⟩
  · intro stopped
    exact absurd stopped running

theorem stepperEventEdge_of_more (more : s.count - 1 ≠ 0) : stepperEventEdge s =
    { s with
      steps := s.steps ++ [(s.dirPin, s.waketime)]
      count := s.count - 1
      waketime := s.waketime + s.interval
      interval := s.interval + signExtend s.add } := by
  rw [stepperEventEdge]
  rw [if_pos more]

theorem stepperEventEdge_of_last (last : s.count - 1 = 0) : stepperEventEdge s =
    { (stepperLoadNext { s with steps := s.steps ++ [(s.dirPin, s.waketime)] }).1 with
      timerActive :=
        (stepperLoadNext { s with steps := s.steps ++ [(s.dirPin, s.waketime)] }).2 } := by
  rw [stepperEventEdge]
  rw [if_neg (not_not_intro last)]

def Stepper.TakesStep (s next : Stepper) : Prop :=
  next.Consistent ∧ next.outlook = s.outlook ∧ next.steps = s.steps ++ [(s.dirPin, s.waketime)]

section

variable (consistent : s.Consistent)
include consistent

theorem stepperEventEdge_more (active : s.timerActive) (more : s.count - 1 ≠ 0)
    (counted : (s.count - 1).toNat = s.count.toNat - 1) : s.TakesStep (stepperEventEdge s) := by
  have least : s.count.toNat - 1 = (s.count - 1).toNat - 1 + 1 := by
    have ne : (s.count - 1).toNat ≠ 0 := fun zero => more (UInt32.toNat.inj zero)
    omega
  have event := stepperEventEdge_of_more more
  have current : (stepperEventEdge s).current = s.current := by
    rw [Stepper.current, Stepper.current, if_pos active, least, Motion.advance, event]
    rw [if_pos active]
  have queued : (stepperEventEdge s).queued = s.queued := by
    rw [Stepper.queued, Stepper.queued, current, event]
  rw [event] at queued ⊢
  refine ⟨{ consistent with
    active := ⟨fun _ => more, fun _ => active⟩
    idle := fun zero => absurd zero more
    lastDir := ?_ }, ?_, rfl⟩
  · rw [queued]
    exact consistent.lastDir
  · rw [Stepper.outlook, queued]
    rfl

theorem stepperEventEdge_stop (last : s.count - 1 = 0) (queue : s.mq = [])
    (current : s.current = ⟨s.waketime, s.dirPin, s.steps ++ [(s.dirPin, s.waketime)]⟩) :
    s.TakesStep (stepperEventEdge s) := by
  have stopped : stepperEventEdge s =
      { s with
        steps := s.steps ++ [(s.dirPin, s.waketime)]
        count := 0
        timerActive := false } := by
    rw [stepperEventEdge_of_last last, stepperLoadNext]
    rw [queue]
  have queued : (stepperEventEdge s).queued = s.queued := by
    rw [Stepper.queued, Stepper.queued, current, stopped]
    rfl
  rw [stopped] at queued ⊢
  refine ⟨{ consistent with
    active := ⟨fun on => absurd on Bool.false_ne_true, fun ne => absurd rfl ne⟩
    idle := fun _ => queue
    lastDir := ?_ }, ?_, rfl⟩
  · rw [queued]
    exact consistent.lastDir
  · rw [Stepper.outlook, queued]
    rfl

theorem stepperEventEdge_spec (active : s.timerActive) : s.TakesStep (stepperEventEdge s) := by
  have running := consistent.active.mp active
  have positive : 1 ≤ s.count.toNat :=
    Nat.one_le_iff_ne_zero.mpr fun zero => running (UInt32.toNat.inj zero)
  have counted : (s.count - 1).toNat = s.count.toNat - 1 := by
    apply UInt32.toNat_sub_of_le
    exact positive
  by_cases last : s.count - 1 = 0
  · have one : s.count.toNat - 1 = 0 := by
      rw [← counted, last]
      rfl
    have current : s.current = ⟨s.waketime, s.dirPin, s.steps ++ [(s.dirPin, s.waketime)]⟩ := by
      rw [Stepper.current, if_pos active, one, Motion.advance]
    cases queue : s.mq with
    | nil => exact stepperEventEdge_stop consistent last queue current
    | cons m rest =>
      have lastDir := consistent.lastDir
      rw [Stepper.queued, current] at lastDir
      rcases load_consistent (s := { s with steps := s.steps ++ [(s.dirPin, s.waketime)] })
        consistent.singleSched consistent.needReset queue consistent.nonzero lastDir with
        ⟨loaded, isLoaded, queued, loadedConsistent, nextDir, steps⟩
      rw [stepperEventEdge_of_last last, isLoaded]
      refine ⟨loadedConsistent, ?_, steps⟩
      rw [Stepper.outlook, queued, nextDir, Stepper.outlook, Stepper.queued, current]
  · exact stepperEventEdge_more consistent active last counted

theorem commandQueueStep_spec (interval count add : UInt32) (nonzero : count.toUInt16 ≠ 0) :
    ∃ next, commandQueueStep s interval count add = some next ∧ next.Consistent ∧
      next.outlook = s.outlook.execute (.queueStep interval count add) ∧
      next.steps = s.steps := by
  have outlookDir : (s.outlook.execute (.queueStep interval count add)).dir = s.nextDir :=
    Motion.advance_dir _ _ _ _
  have queued : (s.mq ++ [newMove s interval count add]).foldl StepperMove.run s.current =
      s.outlook.execute (.queueStep interval count add) := by
    rw [foldl_append]
    have turned : (s.queued.dir ^^ decide (s.lastDir ≠ s.nextDir)) = s.nextDir := by
      rw [consistent.lastDir]
      cases s.lastDir <;> cases s.nextDir <;> rfl
    change Motion.advance _ _ _
      { s.queued with dir := s.queued.dir ^^ decide (s.lastDir ≠ s.nextDir) } = _
    rw [turned]
    rfl
  have takesSteps : (newMove s interval count add).count ≠ 0 := nonzero
  rw [commandQueueStep]
  rw [if_neg takesSteps]
  generalize newMove s interval count add = m at queued takesSteps ⊢
  generalize s.outlook.execute (.queueStep interval count add) = aim at outlookDir queued ⊢
  have members : ∀ other ∈ (pushMove s m).mq, other.count ≠ 0 :=
    forall_mem_append.mpr ⟨consistent.nonzero, forall_mem_singleton.mpr takesSteps⟩
  have lastDir : ((pushMove s m).mq.foldl StepperMove.run s.current).dir = (pushMove s m).lastDir :=
    (congrArg Motion.dir queued).trans outlookDir
  have outlook : ∀ next : Stepper, next.nextDir = s.nextDir →
      next.queued = (pushMove s m).mq.foldl StepperMove.run s.current → next.outlook = aim := by
    intro next sameDir same
    rw [Stepper.outlook, same, pushMove, queued, sameDir, ← outlookDir]
  by_cases running : s.count ≠ 0
  · rw [if_pos running]
    refine ⟨_, rfl, ?_, outlook _ rfl rfl, rfl⟩
    refine ⟨consistent.singleSched, consistent.needReset, consistent.active, ?_, members, lastDir⟩
    intro zero
    exact absurd zero running
  have stopped := not_not.mp running
  have first : (pushMove s m).mq = [m] := by
    rw [pushMove, consistent.idle stopped]
    rfl
  have current : s.current = ⟨s.waketime, s.dirPin, s.steps⟩ := by
    rw [Stepper.current, if_neg]
    intro active
    exact consistent.active.mp active stopped
  rw [if_neg running, if_neg (by rw [consistent.needReset]; exact Bool.false_ne_true)]
  rw [current] at lastDir outlook
  rcases load_consistent (s := pushMove s m) consistent.singleSched consistent.needReset first
    members lastDir with ⟨loaded, isLoaded, same, loadedConsistent, nextDir, steps⟩
  rw [isLoaded]
  exact ⟨_, rfl, loadedConsistent, outlook _ nextDir same, steps⟩

theorem commandSetNextStepDir_spec (dir : UInt32) : (commandSetNextStepDir s dir).Consistent ∧
      (commandSetNextStepDir s dir).outlook = s.outlook.execute (.setNextStepDir dir) :=
  ⟨{ consistent with }, rfl⟩

end

/-! ## Runs -/

def StepperEvent.command? : StepperEvent → Option StepCommand
  | .command sent => some sent
  | .timer => none

theorem StepperMove.foldl_prefix (moves : List StepperMove) (motion : Motion) :
    motion.steps <+: (moves.foldl StepperMove.run motion).steps := by
  induction moves generalizing motion with
  | nil => exact prefix_refl _
  | cons m moves induction =>
    apply IsPrefix.trans _ (induction _)
    exact Motion.advance_prefix _ _ _ { motion with dir := motion.dir ^^ m.dir }

theorem steps_grow_outlook (s : Stepper) : s.steps <+: s.outlook.steps := by
  apply IsPrefix.trans _ (StepperMove.foldl_prefix s.mq s.current)
  rw [Stepper.current]
  split
  · apply IsPrefix.trans _ (Motion.advance_prefix _ _ _ _)
    exact prefix_append _ _
  · exact prefix_refl _

variable (consistent : s.Consistent)
include consistent

theorem stepperStep_spec (event : StepperEvent)
    (executable : ∀ command, event.command? = some command → command.Executable) :
    ∃ next, stepperStep s event = some next ∧ next.Consistent ∧
      next.outlook = s.outlook.executeAll event.command?.toList ∧ s.steps <+: next.steps := by
  cases event with
  | command command =>
    have possible := executable command rfl
    cases command with
    | queueStep interval count add =>
      rcases commandQueueStep_spec consistent interval count add possible with
        ⟨next, executed, nextConsistent, outlook, steps⟩
      exact ⟨next, executed, nextConsistent, outlook, ⟨[], by rw [steps, append_nil]⟩⟩
    | setNextStepDir dir =>
      rcases commandSetNextStepDir_spec consistent dir with ⟨nextConsistent, outlook⟩
      exact ⟨_, rfl, nextConsistent, outlook, prefix_refl _⟩
    | other data => exact ⟨s, rfl, consistent, rfl, prefix_refl _⟩
  | timer =>
    refine ⟨_, rfl, ?_⟩
    split
    · rename_i active
      rcases stepperEventEdge_spec consistent active with ⟨nextConsistent, outlook, steps⟩
      refine ⟨nextConsistent, outlook, ?_⟩
      rw [steps]
      exact prefix_append _ _
    · exact ⟨consistent, rfl, prefix_refl _⟩

/-- Whatever the order of commands and timer events, the motion ahead is that of the
commands. -/
theorem stepper_run (events : List StepperEvent)
    (executable : ∀ command ∈ events.filterMap StepperEvent.command?, command.Executable) :
    ∃ final, runEvents stepperStep s events = some final ∧ final.Consistent ∧
      final.outlook = s.outlook.executeAll (events.filterMap StepperEvent.command?) ∧
      s.steps <+: final.steps := by
  induction events generalizing s with
  | nil => exact ⟨s, rfl, consistent, rfl, prefix_refl _⟩
  | cons event events induction =>
    have split : (event :: events).filterMap StepperEvent.command? =
        event.command?.toList ++ events.filterMap StepperEvent.command? := by
      rw [filterMap_cons]
      cases event.command? with
      | none => rfl
      | some command => rfl
    rw [split] at executable ⊢
    rcases stepperStep_spec consistent event (by
      intro command here
      apply executable
      rw [here]
      exact mem_append_left _ (mem_singleton_self _)) with
      ⟨next, stepped, nextConsistent, outlook, begins⟩
    rcases induction nextConsistent (by
      intro command member
      exact executable command (mem_append_right _ member)) with
      ⟨final, ran, finalConsistent, finalOutlook, continues⟩
    refine ⟨final, runEvents_cons_eq_some.mpr ⟨next, stepped, ran⟩, finalConsistent, ?_,
      begins.trans continues⟩
    rw [finalOutlook, outlook, Motion.executeAll, Motion.executeAll, Motion.executeAll,
      foldl_append]

theorem outlook_of_inactive (inactive : ¬ s.timerActive) : s.outlook.steps = s.steps := by
  have stopped : s.count = 0 := by
    by_contra running
    exact inactive (consistent.active.mpr running)
  change s.queued.steps = s.steps
  rw [Stepper.queued, consistent.idle stopped, foldl_nil, Stepper.current, if_neg inactive]

theorem stepper_drains (count : Nat) (enough : s.outlook.steps.length ≤ s.steps.length + count) :
    ∃ final, runEvents stepperStep s (replicate count .timer) = some final ∧
      final.steps = s.outlook.steps := by
  induction count generalizing s with
  | zero =>
    refine ⟨s, rfl, ?_⟩
    exact (steps_grow_outlook s).eq_of_length_le (by omega)
  | succ count induction =>
    by_cases active : s.timerActive
    · rcases stepperEventEdge_spec consistent active with ⟨next, outlook, steps⟩
      rcases induction next (by
        rw [outlook, steps, length_append, length_singleton]
        omega) with ⟨final, ran, all⟩
      refine ⟨final, runEvents_cons_eq_some.mpr ⟨_, ?_, ran⟩, all.trans (congrArg _ outlook)⟩
      rw [stepperStep, if_pos active]
    · have done := outlook_of_inactive consistent active
      rcases induction consistent (by rw [done]; omega) with ⟨final, ran, all⟩
      refine ⟨final, runEvents_cons_eq_some.mpr ⟨s, ?_, ran⟩, all⟩
      rw [stepperStep, if_neg active]

end CentauriCarbon.Stepping
