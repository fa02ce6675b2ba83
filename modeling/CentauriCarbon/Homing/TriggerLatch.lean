import CentauriCarbon.Homing.Trsync
import Mathlib.Data.Fintype.EquivFin

/-! # The trigger latch

Endstops, timeouts and the host race for the trigger. In each epoch one of them wins, the
signals registered by then are called once, with its reason, and what is reported
afterwards is this reason.
-/

namespace CentauriCarbon.Homing

open Function List Option

variable {signalCount : ℕ}

/-! ## The list of signals -/

structure Registers (ts : Trsync signalCount)
    (signals : List (Fin signalCount × SignalCallback)) : Prop where
  hangs : Hangs ts.next ts.signals (signals.map Prod.fst)
  nodup : (signals.map Prod.fst).Nodup
  func_eq : ∀ signal ∈ signals, ts.func signal.1 = some signal.2
  unregistered : ∀ tss, tss ∉ signals.map Prod.fst → ts.func tss = none

namespace Registers

variable {ts : Trsync signalCount} {signals : List (Fin signalCount × SignalCallback)}

theorem nil_of_none (empty : ts.signals = none) (none_left : ∀ tss, ts.func tss = none) :
    Registers ts [] where
  hangs := empty
  nodup := nodup_nil
  func_eq := by simp
  unregistered := fun tss _ => none_left tss

theorem update_none {func : Fin signalCount → Option SignalCallback}
    (rest : other ≠ tss → func other = none) : update func tss none other = none := by
  by_cases same : other = tss
  · rw [same]
    exact update_self _ _ _
  · rw [update_of_ne same]
    exact rest same

/-- The signals behind the first one, once that is taken off the list. -/
theorem pop (registers : Registers ts (signal :: signals)) : Registers { ts with
      signals := ts.next signal.1
      next := update ts.next signal.1 none
      func := update ts.func signal.1 none } signals := by
  have notMem : signal.1 ∉ signals.map Prod.fst := (nodup_cons.mp registers.nodup).1
  exact
    { hangs := registers.hangs.2.update_of_notMem notMem none
      nodup := (nodup_cons.mp registers.nodup).2
      func_eq := by
        intro other member
        have different : other.1 ≠ signal.1 := ne_of_mem_of_not_mem (mem_map_of_mem member) notMem
        change update ts.func signal.1 none other.1 = _
        rw [update_of_ne different]
        exact registers.func_eq other (mem_cons_of_mem _ member)
      unregistered := by
        intro tss others
        apply update_none
        intro different
        apply registers.unregistered
        rw [map_cons, mem_cons, not_or]
        exact ⟨different, others⟩ }

theorem clearSignals (hangs : Hangs ts.next pointer nodes) (nodup : nodes.Nodup)
    (unregistered : ∀ tss, tss ∉ nodes → ts.func tss = none) (enough : nodes.length < fuel) :
    ∃ next func, Trsync.clearSignals fuel pointer ts =
        some { ts with next, func } ∧ ∀ tss, func tss = none := by
  induction nodes generalizing ts pointer fuel with
  | nil =>
    cases fuel with
    | zero => simp at enough
    | succ fuel =>
      have empty : pointer = none := hangs
      rw [empty]
      exact ⟨ts.next, ts.func, rfl, fun tss => unregistered tss (by simp)⟩
  | cons node nodes induction =>
    cases fuel with
    | zero => simp at enough
    | succ fuel =>
      rw [hangs.1, Trsync.clearSignals]
      rw [nodup_cons] at nodup
      apply induction (hangs.2.update_of_notMem nodup.1 none) nodup.2
      · intro tss others
        apply update_none
        intro different
        apply unregistered
        rw [mem_cons, not_or]
        exact ⟨different, others⟩
      · exact Nat.lt_of_succ_lt_succ enough

variable (registers : Registers ts signals)
include registers

theorem length_lt : signals.length < signalCount + 1 := by
  have bound := registers.nodup.length_le_card
  rw [length_map, Fintype.card_fin] at bound
  exact Nat.lt_succ_of_le bound

theorem isSome_iff (tss : Fin signalCount) : (ts.func tss).isSome ↔ tss ∈ signals.map Prod.fst := by
  constructor
  · intro registered
    by_contra notMem
    rw [registers.unregistered tss notMem] at registered
    cases registered
  intro member
  rcases mem_map.mp member with ⟨signal, inList, rfl⟩
  rw [registers.func_eq signal inList]
  rfl

/-- A dispatch calls the signals one after the other and unregisters them. -/
theorem dispatchSignals (reason : UInt8) (enough : signals.length < fuel) :
    ∃ next func, ts.dispatchSignals reason fuel =
        some ({ ts with signals := none, next, func },
          signals.map fun signal => ⟨signal.1, signal.2, reason⟩) ∧
      ∀ tss, func tss = none := by
  induction signals generalizing ts fuel with
  | nil =>
    cases fuel with
    | zero => simp at enough
    | succ fuel =>
      have empty : ts.signals = none := registers.hangs
      refine ⟨ts.next, ts.func, ?_, fun tss => registers.unregistered tss (by simp)⟩
      have ended : ts.dispatchSignals reason (fuel + 1) = some (ts, []) := by
        rw [Trsync.dispatchSignals, empty]
      rw [ended, ← empty]
      rfl
  | cons signal signals induction =>
    cases fuel with
    | zero => simp at enough
    | succ fuel =>
      have first : ts.signals = some signal.1 := registers.hangs.1
      have callback := registers.func_eq signal mem_cons_self
      rcases induction registers.pop (Nat.lt_of_succ_lt_succ enough) with
        ⟨next, func, dispatched, none_left⟩
      refine ⟨next, func, ?_, none_left⟩
      rw [Trsync.dispatchSignals, first]
      dsimp only
      rw [callback, bind_some, dispatched]
      rfl

theorem doTrigger (reason : UInt8) (armed : ts.canTrigger) : ∃ next, ts.doTrigger reason =
        some (next, signals.map fun signal => ⟨signal.1, signal.2, reason⟩) ∧
      Registers next [] ∧ next.canTrigger = false ∧ next.triggerReason = reason := by
  let latched : Trsync signalCount :=
    { ts with triggerReason := reason, canTrigger := false, report := true }
  have same : Registers latched signals := { registers with }
  rcases same.dispatchSignals reason same.length_lt with ⟨next, func, dispatched, none_left⟩
  rw [Trsync.doTrigger, armed]
  change ∃ after, (latched.dispatchSignals reason (signalCount + 1)).map _ = some (after, _) ∧ _
  rw [dispatched]
  exact ⟨_, rfl, nil_of_none rfl none_left, rfl, rfl⟩

theorem commandStart (reportClock reportTicks : UInt32) (expireReason : UInt8) :
    ∃ next, ts.commandStart reportClock reportTicks expireReason = some next ∧
      Registers next [] ∧ next.canTrigger := by
  have enough := registers.length_lt
  rw [← length_map Prod.fst] at enough
  let stopped : Trsync signalCount := { ts with reportActive := false, expireActive := false }
  have hangs : Hangs stopped.next stopped.signals (signals.map Prod.fst) := registers.hangs
  rcases clearSignals hangs registers.nodup registers.unregistered enough with
    ⟨next, func, cleared, none_left⟩
  rw [Trsync.commandStart, Trsync.clear]
  rw [cleared]
  exact ⟨_, rfl, nil_of_none rfl none_left, rfl⟩

theorem addSignal {next : Trsync signalCount} (added : ts.addSignal tss func = some next) :
    Registers next ((tss, func.getD 0) :: signals) ∧
      ∃ signals links func, next = { ts with signals, next := links, func } := by
  rw [Trsync.addSignal] at added
  split at added
  · cases added
  rename_i possible
  rw [Bool.or_eq_true, not_or, registers.isSome_iff] at possible
  rcases possible with ⟨notMem, given⟩
  cases func with
  | none => exact absurd rfl given
  | some callback =>
    cases added
    refine ⟨?_, _, _, _, rfl⟩
    exact
      { hangs := ⟨rfl, by
          change Hangs (update ts.next tss ts.signals) (update ts.next tss ts.signals tss) _
          rw [update_self]
          exact registers.hangs.update_of_notMem notMem _⟩
        nodup := nodup_cons.mpr ⟨notMem, registers.nodup⟩
        func_eq := by
          intro signal member
          rcases mem_cons.mp member with rfl | member
          · exact update_self _ _ _
          have different : signal.1 ≠ tss := ne_of_mem_of_not_mem (mem_map_of_mem member) notMem
          change update ts.func tss (some callback) signal.1 = _
          rw [update_of_ne different]
          exact registers.func_eq signal member
        unregistered := by
          intro other others
          rw [map_cons, mem_cons, not_or] at others
          change update ts.func tss (some callback) other = _
          rw [update_of_ne others.1]
          exact registers.unregistered other others.2 }

end Registers

/-! ## Epochs -/

def Epoch.current (epoch : Epoch signalCount) : List (Fin signalCount × SignalCallback) :=
  if epoch.triggers = [] then epoch.registered else epoch.late

/-- A message reports the trigger there has been, or was read when there was none. -/
def Epoch.Truthful (epoch : Epoch signalCount) (message : TrsyncState × List UInt8) : Prop :=
  (message.1.canTrigger = false → epoch.triggers = [message.1.triggerReason]) ∧
    (message.1.canTrigger = true → message.2 = [])

structure Epoch.Latches (epoch : Epoch signalCount) (ts : Trsync signalCount)
    (foreground : Foreground) : Prop where
  registers : Registers ts epoch.current
  armed : ts.canTrigger = true ↔ epoch.triggers = []
  once : epoch.triggers.length ≤ 1
  reason_eq : ∀ reason ∈ epoch.triggers, ts.triggerReason = reason
  late_eq : epoch.triggers = [] → epoch.late = []
  nodup : (epoch.registered.map Prod.fst).Nodup
  invoked_eq : epoch.invoked = epoch.triggers.flatMap fun reason =>
    epoch.registered.map fun signal => ⟨signal.1, signal.2, reason⟩
  sent : ∀ message ∈ epoch.messages, epoch.Truthful message
  pending : ∀ state, foreground = .sending state → epoch.Truthful (state, epoch.sampled)

namespace Epoch.Latches

variable {epoch : Epoch signalCount} {ts : Trsync signalCount}

variable (latches : epoch.Latches ts foreground)
include latches

theorem trigger (armed : ts.canTrigger) (reason : UInt8) :
    ∃ next invoked, ts.doTrigger reason = some (next, invoked) ∧
      (epoch.trigger reason invoked).Latches next foreground ∧ next.canTrigger = false := by
  have waiting := latches.armed.mp armed
  have current : epoch.current = epoch.registered := if_pos waiting
  have registers := latches.registers
  rw [current] at registers
  rcases registers.doTrigger reason armed with ⟨next, triggered, empty, off, reasonSet⟩
  have triggers : (epoch.trigger reason
      (epoch.registered.map fun signal => ⟨signal.1, signal.2, reason⟩)).triggers = [reason] := by
    rw [Epoch.trigger, waiting]
    rfl
  have truthful : ∀ message, epoch.Truthful message → (epoch.trigger reason
      (epoch.registered.map fun signal => ⟨signal.1, signal.2, reason⟩)).Truthful message := by
    intro message before
    refine ⟨?_, before.2⟩
    intro stopped
    have none_yet := before.1 stopped
    rw [waiting] at none_yet
    cases none_yet
  refine ⟨next, _, triggered, ?_, off⟩
  exact
    { registers := by
        rw [Epoch.current, triggers, if_neg (cons_ne_nil _ _)]
        change Registers next epoch.late
        rw [latches.late_eq waiting]
        exact empty
      armed := by
        rw [triggers, off]
        simp
      once := by rw [triggers]; exact le_rfl
      reason_eq := by
        rw [triggers]
        exact forall_mem_singleton.mpr reasonSet
      late_eq := by
        rw [triggers]
        exact fun impossible => absurd impossible (cons_ne_nil _ _)
      nodup := latches.nodup
      invoked_eq := by
        rw [triggers]
        change epoch.invoked ++ _ = _
        rw [latches.invoked_eq, waiting]
        simp [Epoch.trigger]
      sent := fun message member => truthful message (latches.sent message member)
      pending := fun state sending => truthful _ (latches.pending state sending) }

theorem addSignal {next : Trsync signalCount} (added : ts.addSignal tss func = some next) :
    (epoch.addSignal (tss, func.getD 0)).Latches next foreground := by
  rcases latches.registers.addSignal added with ⟨registers, _, _, _, rfl⟩
  by_cases waiting : epoch.triggers = []
  · rw [Epoch.current, if_pos waiting] at registers
    rw [Epoch.addSignal, if_pos waiting]
    exact
      { latches with
        registers := by
          rw [Epoch.current]
          rw [if_pos waiting]
          exact registers
        nodup := registers.nodup
        invoked_eq := by
          rw [latches.invoked_eq, waiting]
          rfl }
  · rw [Epoch.current, if_neg waiting] at registers
    rw [Epoch.addSignal, if_neg waiting]
    exact
      { latches with
        registers := by
          rw [Epoch.current]
          rw [if_neg waiting]
          exact registers
        late_eq := fun none_yet => absurd none_yet waiting }

/-- Without the flag there has been a trigger, for the reason that is stored. -/
theorem triggers_eq (off : ts.canTrigger = false) : epoch.triggers = [ts.triggerReason] := by
  have once := latches.once
  have reason := latches.reason_eq
  cases triggers : epoch.triggers with
  | nil =>
    rw [latches.armed.mpr triggers] at off
    cases off
  | cons first rest =>
    rw [triggers] at once reason
    rw [length_eq_zero_iff.mp (Nat.le_zero.mp (Nat.le_of_succ_le_succ once)),
      reason first mem_cons_self]

theorem sample {state : TrsyncState} (canTrigger : state.canTrigger = ts.canTrigger)
    (reason : state.triggerReason = ts.triggerReason) :
    ({ epoch with sampled := epoch.triggers } : Epoch signalCount).Latches ts (.sending state) :=
  { latches with
    pending := by
      intro other same
      cases same
      constructor
      · intro stopped
        rw [reason]
        exact latches.triggers_eq (canTrigger.symm.trans stopped)
      · intro waiting
        exact latches.armed.mp (canTrigger.symm.trans waiting) }

theorem send (sending : foreground = .sending state) :
    ({ epoch with messages := epoch.messages ++ [(state, epoch.sampled)] } :
      Epoch signalCount).Latches ts .between :=
  { latches with
    sent := forall_mem_append.mpr
      ⟨latches.sent, forall_mem_singleton.mpr (latches.pending state sending)⟩
    pending := nofun }

end Epoch.Latches

/-! ## Runs -/

def TrsyncMachine.Latches (machine : TrsyncMachine signalCount) : Prop :=
  match machine.epoch with
  | none => machine.ts.canTrigger = false ∧ ∃ signals, Registers machine.ts signals
  | some epoch => epoch.Latches machine.ts machine.foreground

namespace TrsyncMachine.Latches

variable {machine next : TrsyncMachine signalCount}

variable (latches : machine.Latches)
include latches

theorem registers : ∃ signals, Registers machine.ts signals := by
  rcases machine with ⟨ts, foreground, _ | epoch⟩
  · exact latches.2
  · exact ⟨_, Epoch.Latches.registers latches⟩

/-- The timers and the reports play no part. -/
theorem setTimers (same : canTrigger = machine.ts.canTrigger) :
    ({ machine with ts := { machine.ts with
      reportActive, reportWaketime, expireActive, expireWaketime, reportTicks, canTrigger, report,
      expireReason, wake } } : TrsyncMachine signalCount).Latches := by
  subst same
  rcases machine with ⟨ts, foreground, _ | epoch⟩
  · rcases latches with ⟨off, registered, registers⟩
    exact ⟨off, registered, { registers with }⟩
  · have latches : epoch.Latches ts foreground := latches
    exact { latches with registers := { latches.registers with } }

theorem trigger (reason : UInt8) : ∃ result, machine.ts.doTrigger reason = some result ∧
      (machine.triggered reason result).Latches ∧ result.1.canTrigger = false := by
  cases armed : machine.ts.canTrigger with
  | false =>
    refine ⟨(machine.ts, []), ?_, ?_, armed⟩
    · rw [Trsync.doTrigger, armed]
      rfl
    · rw [TrsyncMachine.triggered, armed]
      exact latches
  | true =>
    rcases machine with ⟨ts, foreground, _ | epoch⟩
    · exact absurd (armed.symm.trans latches.1) (by decide)
    rcases Epoch.Latches.trigger latches armed reason with
      ⟨next, invoked, triggered, after, off⟩
    refine ⟨(next, invoked), triggered, ?_, off⟩
    rw [TrsyncMachine.triggered]
    rw [armed]
    exact after

theorem start (reportClock reportTicks : UInt32) (expireReason : UInt8) :
    ∃ ts, machine.ts.commandStart reportClock reportTicks expireReason = some ts ∧
      Epoch.begin.Latches ts .between := by
  rcases latches.registers with ⟨signals, registers⟩
  rcases registers.commandStart reportClock reportTicks expireReason with
    ⟨ts, started, empty, armed⟩
  refine ⟨ts, started, ?_⟩
  exact
    { registers := empty
      armed := iff_of_true armed rfl
      once := Nat.zero_le _
      reason_eq := by simp [Epoch.begin]
      late_eq := fun _ => rfl
      nodup := nodup_nil
      invoked_eq := rfl
      sent := by simp [Epoch.begin]
      pending := nofun }

theorem sample {state : TrsyncState} (canTrigger : state.canTrigger = machine.ts.canTrigger)
    (reason : state.triggerReason = machine.ts.triggerReason) : ({ machine with
      foreground := .sending state
      epoch := machine.epoch.map fun epoch => { epoch with sampled := epoch.triggers } } :
      TrsyncMachine signalCount).Latches := by
  rcases machine with ⟨ts, foreground, _ | epoch⟩
  · exact latches
  · exact Epoch.Latches.sample latches canTrigger reason

theorem send (sending : machine.foreground = .sending state) : ({ machine with
      foreground := .between
      epoch := machine.epoch.map fun epoch =>
        { epoch with messages := epoch.messages ++ [(state, epoch.sampled)] } } :
      TrsyncMachine signalCount).Latches := by
  rcases machine with ⟨ts, foreground, _ | epoch⟩
  · exact latches
  · exact Epoch.Latches.send latches sending

theorem addSignal {ts : Trsync signalCount} (added : machine.ts.addSignal tss func = some ts) :
    ({ machine with
      ts
      epoch := machine.epoch.map fun epoch => epoch.addSignal (tss, func.getD 0) } :
      TrsyncMachine signalCount).Latches := by
  rcases machine with ⟨before, foreground, _ | epoch⟩
  · rcases latches with ⟨off, signals, registers⟩
    rcases registers.addSignal added with ⟨after, _, _, _, rfl⟩
    exact ⟨off, _, after⟩
  · exact Epoch.Latches.addSignal latches added

/-- Where the foreground has got to does not matter unless it sends a message. -/
theorem goOn {foreground : Foreground} (quiet : ∀ state, foreground ≠ .sending state) :
    ({ machine with foreground } : TrsyncMachine signalCount).Latches := by
  rcases machine with ⟨ts, before, _ | epoch⟩
  · exact latches
  · exact
      { (latches : Epoch.Latches epoch ts before) with
        pending := fun state sending => absurd sending (quiet state) }

theorem step (stepped : machine.step event = some next) : next.Latches := by
  cases event with
  | start reportClock reportTicks expireReason =>
    rcases ite_none_right_eq_some.mp stepped with ⟨between, stepped⟩
    rcases latches.start reportClock reportTicks expireReason with ⟨ts, started, begun⟩
    rw [started] at stepped
    cases stepped
    rw [← between] at begun
    exact begun
  | setTimeout clock =>
    rcases ite_none_right_eq_some.mp stepped with ⟨-, ⟨⟩⟩
    rw [Trsync.commandSetTimeout]
    split
    · exact latches.setTimers rfl
    · exact latches
  | trigger reason =>
    rcases ite_none_right_eq_some.mp stepped with ⟨-, stepped⟩
    rcases latches.trigger reason with ⟨result, triggered, after, off⟩
    rw [Trsync.commandTrigger, triggered] at stepped
    cases stepped
    exact (after.setTimers off.symm).sample rfl rfl
  | addSignal tss func =>
    rcases ite_none_right_eq_some.mp stepped with ⟨-, stepped⟩
    rcases map_eq_some_iff.mp stepped with ⟨ts, added, rfl⟩
    exact latches.addSignal added
  | task =>
    rcases ite_none_right_eq_some.mp stepped with ⟨-, ⟨⟩⟩
    apply (latches.setTimers rfl).goOn
    split <;> nofun
  | taskSample time =>
    rcases ite_none_right_eq_some.mp stepped with ⟨-, ⟨⟩⟩
    exact (latches.setTimers rfl).sample rfl rfl
  | send =>
    rw [TrsyncMachine.step] at stepped
    split at stepped
    next state sending =>
      cases stepped
      exact latches.send sending
    · cases stepped
  | expire =>
    rcases ite_none_right_eq_some.mp stepped with ⟨-, stepped⟩
    rcases latches.trigger machine.ts.expireReason with ⟨result, triggered, after, off⟩
    rw [triggered] at stepped
    cases stepped
    exact after.setTimers rfl
  | report =>
    rcases ite_none_right_eq_some.mp stepped with ⟨-, ⟨⟩⟩
    exact latches.setTimers rfl
  | doTrigger reason =>
    rcases latches.trigger reason with ⟨result, triggered, after, off⟩
    rw [TrsyncMachine.step, triggered] at stepped
    cases stepped
    exact after

end TrsyncMachine.Latches

theorem initial_latches : (TrsyncMachine.initial signalCount).Latches :=
  ⟨rfl, [], Registers.nil_of_none rfl fun _ => rfl⟩

/-- However commands, timers, endstops and the task are interleaved: a trigger always runs
to its end; in each epoch at most one takes effect; it calls the signals registered before
it, once each and with its reason, and unregisters them; no signal is called otherwise; a
message that the trigger is off reports its reason, and one that it is on was read before
it. -/
theorem trigger_latched (signalCount : ℕ) (events : List (TrsyncEvent signalCount))
    (final : TrsyncMachine signalCount)
    (ran : runEvents TrsyncMachine.step (.initial signalCount) events = some final) :
    (∀ reason, (final.ts.doTrigger reason).isSome = true) ∧
    ∀ epoch, final.epoch = some epoch →
      epoch.triggers.length ≤ 1 ∧
      (epoch.registered.map Prod.fst).Nodup ∧
      epoch.invoked = epoch.triggers.flatMap (fun reason =>
        epoch.registered.map fun signal => ⟨signal.1, signal.2, reason⟩) ∧
      (∀ tss, (final.ts.func tss).isSome = true ↔ tss ∈ epoch.current.map Prod.fst) ∧
      ∀ message ∈ epoch.messages,
        (message.1.canTrigger = false → epoch.triggers = [message.1.triggerReason]) ∧
        (message.1.canTrigger = true → message.2 = []) := by
  have latches : final.Latches :=
    runEvents_invariant (fun _ _ _ before stepped => before.step stepped) initial_latches ran
  constructor
  · intro reason
    rcases latches.trigger reason with ⟨result, triggered, _⟩
    rw [triggered]
    rfl
  intro epoch isEpoch
  rw [TrsyncMachine.Latches, isEpoch] at latches
  exact ⟨latches.once, latches.nodup, latches.invoked_eq, latches.registers.isSome_iff,
    latches.sent⟩

def endstopFirst : List (TrsyncEvent 2) :=
  [.start 100 50 4, .addSignal 0 (some 7), .addSignal 1 (some 8), .setTimeout 1000, .report,
    .task, .taskSample 105, .doTrigger 1, .send, .expire, .task, .taskSample 160, .send]

theorem trigger_latched_endstop :
    ((runEvents TrsyncMachine.step (.initial 2) endstopFirst).bind TrsyncMachine.epoch).map
        Epoch.triggers = some [1] ∧
      ∃ final, runEvents TrsyncMachine.step (.initial 2) endstopFirst = some final ∧
        ∀ epoch, final.epoch = some epoch → ∀ message ∈ epoch.messages,
          message.1.canTrigger = false → epoch.triggers = [message.1.triggerReason] := by
  refine ⟨by decide +kernel, ?_⟩
  have runs : (runEvents TrsyncMachine.step (.initial 2) endstopFirst).isSome := by
    decide +kernel
  rcases isSome_iff_exists.mp runs with ⟨final, ran⟩
  refine ⟨final, ran, ?_⟩
  intro epoch isEpoch message member
  exact (((trigger_latched 2 endstopFirst final ran).2 epoch isEpoch).2.2.2.2 message member).1

end CentauriCarbon.Homing
