import CentauriCarbon.Outputs.RequestQueue
import Mathlib.Tactic.Linarith
import Mathlib.Tactic.Ring

/-! # The last fan command

Only requests for zero wait: `M107` is the only command that goes through the look-ahead queue. So
an `M106` that comes while an `M107` is still waiting is overtaken by it later.
-/

namespace CentauriCarbon.Outputs

open List

variable {config : FanConfig}

namespace FanConfig

theorem power_le (config : FanConfig) (value : ℚ) : config.power value ≤ config.maxPower :=
  max_le (min_le_left _ _) config.maxPower_pos.le

theorem power_zero (config : FanConfig) : config.power 0 = 0 := by
  rw [power, ite_self, zero_mul, min_eq_right config.maxPower_pos.le, max_self]

end FanConfig

namespace Fan

variable {fan : Fan}

theorem not_needsKick_of_maxPower (full : fan.lastFanValue = config.maxPower)
    (value : ℚ) : ¬fan.NeedsKick config (config.power value) := by
  rintro ⟨_, _, off | faster⟩
  · exact config.maxPower_pos.ne' (full.symm.trans off)
  · rw [full] at faster
    linarith [config.power_le value]

/-- What `_apply_speed` does: nothing, a kick at full power, or the requested power. -/
theorem applySpeed_cases (config : FanConfig) (fan : Fan) (printTime value : ℚ) :
    config.power value = fan.lastFanValue ∧
        fan.applySpeed config printTime value = (fan, .discard) ∨
      (∃ kicked : Fan, fan.NeedsKick config (config.power value) ∧
        fan.applySpeed config printTime value = (kicked, .delay config.kickStartTime) ∧
        kicked.lastFanValue = config.maxPower ∧
        kicked.sent = fan.sent ++ [(printTime, config.maxPower)]) ∨
      ∃ set : Fan, fan.applySpeed config printTime value = (set, .normal) ∧
        set.lastFanValue = config.power value ∧
        set.sent = fan.sent ++ [(printTime, config.power value)] := by
  rw [applySpeed]
  split_ifs with same kick
  · exact .inl ⟨same, rfl⟩
  · exact .inr (.inl ⟨_, kick, rfl, rfl, rfl⟩)
  · exact .inr (.inr ⟨_, rfl, rfl, rfl⟩)

def Recorded (fan : Fan) : Prop := fan.lastFanValue = fan.lastSent

theorem recorded_of_sent (sent : fan.sent = before ++ [(printTime, value)])
    (last : fan.lastFanValue = value) : fan.Recorded := by
  rw [Recorded, last, lastSent, sent, getLast?_concat]
  rfl

theorem Recorded.applySpeed (recorded : fan.Recorded) :
    (fan.applySpeed config printTime value).1.Recorded := by
  rcases fan.applySpeed_cases config printTime value with
    ⟨_, discards⟩ | ⟨kicked, _, kicks, last, sent⟩ | ⟨set, sets, last, sent⟩
  · rw [discards]
    exact recorded
  · rw [kicks]
    exact recorded_of_sent sent last
  · rw [sets]
    exact recorded_of_sent sent last

theorem applySpeed_zero (config : FanConfig) (fan : Fan) (printTime : ℚ) :
    (∃ same : Fan, fan.applySpeed config printTime 0 = (same, .discard) ∧ same.lastFanValue = 0) ∨
      ∃ set : Fan, fan.applySpeed config printTime 0 = (set, .normal) ∧ set.lastFanValue = 0 := by
  rcases fan.applySpeed_cases config printTime 0 with
    ⟨last, discards⟩ | ⟨_, kick, _⟩ | ⟨set, sets, last, _⟩
  · rw [config.power_zero] at last
    exact .inl ⟨fan, discards, last.symm⟩
  · rw [config.power_zero] at kick
    exact absurd rfl kick.1
  · rw [config.power_zero] at last
    exact .inr ⟨set, sets, last⟩

end Fan

/-! ## The queue -/

namespace GCodeRequestQueue

variable {queue next : GCodeRequestQueue Fan}

theorem sendAsyncLoop_of_not_needsKick (queue : GCodeRequestQueue Fan)
    (calm : ¬queue.device.NeedsKick config (config.power value)) (fuel : ℕ) :
    ∃ device nextTime, queue.sendAsyncLoop (Fan.applySpeed config) value printTime (fuel + 1) =
        some ⟨device, queue.rqueue, nextTime⟩ ∧ device.lastFanValue = config.power value ∧
      (queue.device.Recorded → device.Recorded) := by
  rw [sendAsyncLoop]
  rcases queue.device.applySpeed_cases config (max printTime queue.nextMinFlushTime) value with
    ⟨last, discards⟩ | ⟨_, kick, _⟩ | ⟨set, sets, last, sent⟩
  · rw [discards]
    exact ⟨_, _, rfl, last.symm, id⟩
  · exact absurd kick calm
  · rw [sets]
    exact ⟨_, _, rfl, last, fun _ => Fan.recorded_of_sent sent last⟩

theorem sendAsyncLoop_eq (config : FanConfig) (queue : GCodeRequestQueue Fan)
    (value printTime : ℚ) :
    ∃ device nextTime, queue.sendAsyncLoop (Fan.applySpeed config) value printTime 2 =
        some ⟨device, queue.rqueue, nextTime⟩ ∧ device.lastFanValue = config.power value ∧
      (queue.device.Recorded → device.Recorded) := by
  by_cases kick : queue.device.NeedsKick config (config.power value)
  · rw [sendAsyncLoop]
    rcases queue.device.applySpeed_cases config (max printTime queue.nextMinFlushTime) value with
      ⟨last, discards⟩ | ⟨kicked, _, kicks, last, sent⟩ | ⟨set, sets, last, sent⟩
    · rw [discards]
      exact ⟨_, _, rfl, last.symm, id⟩
    · rw [kicks]
      rcases sendAsyncLoop_of_not_needsKick ⟨kicked, queue.rqueue, _⟩
        (Fan.not_needsKick_of_maxPower last value) 0 with ⟨device, nextTime, loops, ends, recorded⟩
      exact ⟨device, nextTime, loops, ends, fun _ => recorded (Fan.recorded_of_sent sent last)⟩
    · rw [sets]
      exact ⟨_, _, rfl, last, fun _ => Fan.recorded_of_sent sent last⟩
  · exact sendAsyncLoop_of_not_needsKick queue kick 1

theorem lastDue_mem (nextTime : ℚ) (first : ℚ × ℚ) (rest : List (ℚ × ℚ)) :
    lastDue nextTime first rest ∈ first :: rest := by
  rw [lastDue]
  cases isLast : (rest.takeWhile fun request => decide (request.1 ≤ nextTime)).getLast? with
  | none => exact mem_cons_self
  | some request =>
    have due := mem_of_getLast? isLast
    exact mem_cons_of_mem _ ((takeWhile_sublist _).subset due)

def OnlyZero (queue : GCodeRequestQueue Fan) : Prop := ∀ request ∈ queue.rqueue, request.2 = 0

def rounds (config : FanConfig) (queue : GCodeRequestQueue Fan) : ℕ :=
  2 * queue.rqueue.length + if queue.device.lastFanValue = config.maxPower then 0 else 1

/-- The print time is beyond all requests, each of which may have to wait for the ones before. -/
def Beyond (printTime : ℚ) (queue : GCodeRequestQueue Fan) : Prop :=
  queue.nextMinFlushTime + queue.rqueue.length * pinMinTime ≤ printTime ∧
    ∀ request ∈ queue.rqueue, request.1 + queue.rqueue.length * pinMinTime ≤ printTime

section Round

variable (round : queue.flushRound (Fan.applySpeed config) printTime = some next)
include round

theorem flushRound_cases : ∃ first rest request later nextTime, queue.rqueue = first :: rest ∧
      nextTime = max first.1 queue.nextMinFlushTime ∧ request ∈ queue.rqueue ∧ later <:+ rest ∧
      ((∃ device, queue.device.applySpeed config nextTime request.2 = (device, .discard) ∧
          next = { queue with device, rqueue := later }) ∨
        (∃ device, queue.device.applySpeed config nextTime request.2 = (device, .normal) ∧
          next = ⟨device, later, nextTime + max 0 pinMinTime⟩) ∨
        ∃ device minWait,
          queue.device.applySpeed config nextTime request.2 = (device, .delay minWait) ∧
          next = ⟨device, request :: later, nextTime + max minWait pinMinTime⟩) := by
  rw [flushRound] at round
  split at round
  · cases round
  next first rest isQueue =>
    dsimp only at round
    generalize isNext : max first.1 queue.nextMinFlushTime = nextTime at round
    split at round
    · cases round
    refine ⟨first, rest, lastDue nextTime first rest, dueLater nextTime rest, nextTime,
      isQueue, isNext.symm, isQueue ▸ lastDue_mem nextTime first rest, dropWhile_suffix _, ?_⟩
    split at round
    next device ran => exact .inl ⟨device, ran, (Option.some.inj round).symm⟩
    next device ran => exact .inr (.inl ⟨device, ran, (Option.some.inj round).symm⟩)
    next device minWait ran =>
      exact .inr (.inr ⟨device, minWait, ran, (Option.some.inj round).symm⟩)

/-- A round with requests for zero sends zero and leaves fewer of them. -/
theorem OnlyZero.flushRound (onlyZero : queue.OnlyZero) :
    next.device.lastFanValue = 0 ∧
      ∃ first rest, queue.rqueue = first :: rest ∧ next.rqueue <:+ rest ∧
        (next.nextMinFlushTime = queue.nextMinFlushTime ∨
          next.nextMinFlushTime = max first.1 queue.nextMinFlushTime + pinMinTime) := by
  rcases flushRound_cases round with
    ⟨first, rest, request, later, nextTime, isQueue, rfl, member, suffix, outcome⟩
  rw [onlyZero request member] at outcome
  rcases queue.device.applySpeed_zero config (max first.1 queue.nextMinFlushTime) with
    ⟨same, discards, last⟩ | ⟨set, sets, last⟩
  · rw [discards] at outcome
    rcases outcome with ⟨device, ⟨⟩, rfl⟩ | ⟨device, ⟨⟩, _⟩ | ⟨device, minWait, ⟨⟩, _⟩
    exact ⟨last, first, rest, isQueue, suffix, .inl rfl⟩
  rw [sets] at outcome
  rcases outcome with ⟨device, ⟨⟩, _⟩ | ⟨device, ⟨⟩, rfl⟩ | ⟨device, minWait, ⟨⟩, _⟩
  refine ⟨last, first, rest, isQueue, suffix, .inr ?_⟩
  exact congrArg _ (max_eq_right (by decide +kernel))

theorem OnlyZero.of_flushRound (onlyZero : queue.OnlyZero) : next.OnlyZero := by
  rcases (onlyZero.flushRound round).2 with ⟨first, rest, isQueue, suffix, _⟩
  intro request member
  apply onlyZero
  rw [isQueue]
  exact mem_cons_of_mem _ (suffix.subset member)

theorem recorded_of_flushRound (recorded : queue.device.Recorded) : next.device.Recorded := by
  rcases flushRound_cases round with ⟨_, _, request, _, nextTime, _, _, _, _, outcome⟩
  have applied : (queue.device.applySpeed config nextTime request.2).1.Recorded :=
    recorded.applySpeed
  rcases outcome with ⟨_, ran, rfl⟩ | ⟨_, ran, rfl⟩ | ⟨_, _, ran, rfl⟩
  all_goals
    rw [ran] at applied
    exact applied

theorem rounds_lt : next.rounds config < queue.rounds config := by
  rcases flushRound_cases round with
    ⟨first, rest, request, later, nextTime, isQueue, _, _, suffix, outcome⟩
  have shorter := suffix.length_le
  rw [rounds, rounds, isQueue, length_cons]
  rcases outcome with ⟨device, _, rfl⟩ | ⟨device, _, rfl⟩ | ⟨device, minWait, delays, rfl⟩
  · dsimp only
    split_ifs
    all_goals omega
  · dsimp only
    split_ifs
    all_goals omega
  rcases queue.device.applySpeed_cases config nextTime request.2 with
    ⟨_, discards⟩ | ⟨kicked, kick, kicks, full, _⟩ | ⟨set, sets, _⟩
  · rw [discards] at delays
    cases delays
  · rw [kicks] at delays
    cases delays
    have slower : queue.device.lastFanValue ≠ config.maxPower :=
      fun isFull => Fan.not_needsKick_of_maxPower isFull request.2 kick
    rw [if_pos full, if_neg slower, length_cons]
    omega
  · rw [sets] at delays
    cases delays

theorem Beyond.flushRound (beyond : queue.Beyond printTime) (onlyZero : queue.OnlyZero) :
    next.Beyond printTime := by
  rcases (onlyZero.flushRound round).2 with ⟨first, rest, isQueue, suffix, nextMin⟩
  have positive : 0 < pinMinTime := by decide +kernel
  have fewer : (next.rqueue.length : ℚ) + 1 ≤ queue.rqueue.length := by
    rw [isQueue, length_cons]
    exact_mod_cast Nat.succ_le_succ suffix.length_le
  have shorter : next.rqueue.length * pinMinTime + pinMinTime ≤
      queue.rqueue.length * pinMinTime := by
    nlinarith
  rcases beyond with ⟨later, requests⟩
  refine ⟨?_, fun request member => ?_⟩
  · have firstTime := requests first (isQueue ▸ mem_cons_self)
    rcases nextMin with same | set
    · rw [same]
      linarith
    rw [set]
    rcases max_choice first.1 queue.nextMinFlushTime with isMax | isMax
    all_goals
      linarith
  · have isRequest : request ∈ queue.rqueue := by
      rw [isQueue]
      exact mem_cons_of_mem _ (suffix.subset member)
    linarith [requests request isRequest]

end Round

theorem flushLoop_invariant (Holds : GCodeRequestQueue Fan → Prop)
    (kept : ∀ queue next, Holds queue →
      queue.flushRound (Fan.applySpeed config) printTime = some next → Holds next)
    (holds : Holds queue) (fuel : ℕ) :
    Holds (queue.flushLoop (Fan.applySpeed config) printTime fuel) := by
  induction fuel generalizing queue with
  | zero => exact holds
  | succ fuel induction =>
    rw [flushLoop]
    split
    · exact holds
    next next round => exact induction (kept queue next holds round)

theorem flushRound_flushNotification (config : FanConfig) (queue : GCodeRequestQueue Fan)
    (printTime : ℚ) : (queue.flushNotification (Fan.applySpeed config) printTime).flushRound
      (Fan.applySpeed config) printTime = none := by
  have enough : ∀ (fuel : ℕ) (queue : GCodeRequestQueue Fan), queue.rounds config ≤ fuel →
      (queue.flushLoop (Fan.applySpeed config) printTime fuel).flushRound
        (Fan.applySpeed config) printTime = none := by
    intro fuel
    induction fuel with
    | zero =>
      intro queue few
      cases round : queue.flushRound (Fan.applySpeed config) printTime with
      | none => exact round
      | some next =>
        have fewer := rounds_lt round
        omega
    | succ fuel induction =>
      intro queue few
      rw [flushLoop]
      split
      next round => exact round
      next next round =>
        have fewer := rounds_lt round
        exact induction next (by omega)
  refine enough _ queue ?_
  rw [rounds]
  split_ifs
  all_goals omega

theorem Beyond.rqueue_eq_nil (beyond : queue.Beyond printTime)
    (ended : queue.flushRound (Fan.applySpeed config) printTime = none) : queue.rqueue = [] := by
  rw [GCodeRequestQueue.flushRound] at ended
  split at ended
  next isQueue => exact isQueue
  next first rest isQueue =>
    have positive : 0 < pinMinTime := by decide +kernel
    have waits : 0 ≤ queue.rqueue.length * pinMinTime := by positivity
    have firstTime := beyond.2 first (isQueue ▸ mem_cons_self)
    have due : ¬printTime < max first.1 queue.nextMinFlushTime :=
      not_lt_of_ge (max_le (by linarith) (by linarith [beyond.1]))
    dsimp only at ended
    rw [if_neg due] at ended
    split at ended
    all_goals cases ended

theorem rqueue_flushNotification (onlyZero : queue.OnlyZero) (beyond : queue.Beyond printTime) :
    (queue.flushNotification (Fan.applySpeed config) printTime).rqueue = [] := by
  have ends : (queue.flushNotification (Fan.applySpeed config) printTime).OnlyZero ∧
      (queue.flushNotification (Fan.applySpeed config) printTime).Beyond printTime := by
    refine flushLoop_invariant (fun queue => queue.OnlyZero ∧ queue.Beyond printTime)
      (fun queue next holds round => ?_) ⟨onlyZero, beyond⟩ _
    exact ⟨holds.1.of_flushRound round, holds.2.flushRound round holds.1⟩
  exact ends.2.rqueue_eq_nil (queue.flushRound_flushNotification config printTime)

end GCodeRequestQueue

namespace PrinterFan

variable {fan next : PrinterFan}

def Pending (fan : PrinterFan) : Prop :=
  fan.gcrq.rqueue ≠ [] ∨ ∃ callbacks ∈ fan.lookahead, callbacks ≠ []

structure Regular (fan : PrinterFan) : Prop where
  rqueue_zero : fan.gcrq.OnlyZero
  lookahead_zero : ∀ callbacks ∈ fan.lookahead, ∀ value ∈ callbacks, value = 0
  recorded : fan.gcrq.device.Recorded

def WillBeOff (fan : PrinterFan) : Prop := fan.Pending ∨ fan.gcrq.device.lastFanValue = 0

def StaysAt (power : ℚ) (fan : PrinterFan) : Prop :=
  ¬fan.Pending ∧ fan.gcrq.device.lastFanValue = power

theorem foldl_queueRequest (queue : GCodeRequestQueue Fan) (printTime : ℚ) (values : List ℚ) :
    values.foldl (fun gcrq value => gcrq.queueRequest printTime value) queue =
      { queue with rqueue := queue.rqueue ++ values.map fun value => (printTime, value) } := by
  induction values generalizing queue with
  | nil => rw [foldl_nil, map_nil, append_nil]
  | cons value values induction =>
    rw [foldl_cons, induction, GCodeRequestQueue.queueRequest, map_cons,
      append_assoc, singleton_append]

theorem processMove_cons (gcrq : GCodeRequestQueue Fan) (callbacks : List ℚ)
    (lookahead : List (List ℚ)) (nextMoveTime : ℚ) :
    processMove ⟨gcrq, callbacks :: lookahead⟩ nextMoveTime =
      ⟨{ gcrq with rqueue := gcrq.rqueue ++ callbacks.map fun value => (nextMoveTime, value) },
        lookahead⟩ := by
  rw [processMove]
  dsimp only
  rw [foldl_queueRequest]

variable (fan)

theorem device_processMove (nextMoveTime : ℚ) :
    (fan.processMove nextMoveTime).gcrq.device = fan.gcrq.device := by
  rcases fan with ⟨gcrq, _ | ⟨callbacks, lookahead⟩⟩
  · rfl
  · rw [processMove_cons]

/-! ## Commands -/

theorem setSpeed_eq (config : FanConfig) (value estPrintTime : ℚ) :
    ∃ device nextTime, fan.setSpeed config value estPrintTime =
        some ⟨⟨device, fan.gcrq.rqueue, nextTime⟩, fan.lookahead⟩ ∧
      device.lastFanValue = config.power value ∧
      (fan.gcrq.device.Recorded → device.Recorded) := by
  rcases fan.gcrq.sendAsyncLoop_eq config value (estPrintTime + pinMinTime) with
    ⟨device, nextTime, sends, last, recorded⟩
  refine ⟨device, nextTime, ?_, last, recorded⟩
  rw [setSpeed, sends]
  rfl

theorem setSpeedFromCommand_cases (value lastMoveTime : ℚ) :
    fan.setSpeedFromCommand value lastMoveTime =
        { fan with gcrq := fan.gcrq.queueRequest lastMoveTime value } ∨
      ∃ moves callbacks, fan.lookahead = moves ++ [callbacks] ∧
        fan.setSpeedFromCommand value lastMoveTime =
          { fan with lookahead := moves ++ [callbacks ++ [value]] } := by
  rw [setSpeedFromCommand]
  split
  · exact .inl rfl
  next callbacks isLast =>
    rcases getLast?_eq_some_iff.mp isLast with ⟨moves, isLookahead⟩
    refine .inr ⟨moves, callbacks, isLookahead, ?_⟩
    rw [isLookahead, dropLast_concat]

theorem pending_setSpeedFromCommand (value lastMoveTime : ℚ) :
    (fan.setSpeedFromCommand value lastMoveTime).Pending := by
  rcases fan.setSpeedFromCommand_cases value lastMoveTime with
    queued | ⟨moves, callbacks, _, registered⟩
  · rw [queued]
    exact .inl (append_ne_nil_of_right_ne_nil _ (cons_ne_nil _ _))
  · rw [registered]
    exact .inr ⟨callbacks ++ [value], mem_append_right _ (mem_singleton_self _),
      append_ne_nil_of_right_ne_nil _ (cons_ne_nil _ _)⟩

variable {fan}

theorem flush_of_not_pending (nothing : ¬fan.Pending) (printTime : ℚ) :
    fan.flush config printTime = fan := by
  have isEmpty : fan.gcrq.rqueue = [] := not_not.mp fun waits => nothing (.inl waits)
  have ended : fan.gcrq.flushRound (Fan.applySpeed config) printTime = none := by
    rw [GCodeRequestQueue.flushRound, isEmpty]
  rw [flush, GCodeRequestQueue.flushNotification, GCodeRequestQueue.flushLoop, ended]

theorem keeps_of_pending_iff (pending : next.Pending ↔ fan.Pending)
    (device : next.gcrq.device = fan.gcrq.device) :
    (fan.WillBeOff → next.WillBeOff) ∧ ∀ power, fan.StaysAt power → next.StaysAt power := by
  constructor
  · rintro (waits | off)
    · exact .inl (pending.mpr waits)
    · exact .inr (device ▸ off)
  · rintro power ⟨nothing, last⟩
    exact ⟨pending.not.mpr nothing, device ▸ last⟩

/-- A command switches the fan off in the end if it requests that, or if something waits. -/
theorem cmd_cases (requested : given.requested = some value)
    (stepped : fan.step config (.command given estPrintTime lastMoveTime) = some next) :
    (config.power value = 0 ∨ fan.Pending → next.WillBeOff) ∧
      (config.power value ≠ 0 → ¬fan.Pending → next.StaysAt (config.power value)) := by
  cases given with
  | m106 s p =>
    rw [step, cmd, requested] at stepped
    rcases fan.setSpeed_eq config value estPrintTime with ⟨_, _, isNext, last, _⟩
    cases isNext.symm.trans stepped
    constructor
    · rintro (zero | waits)
      · exact .inr (last.trans zero)
      · exact .inl waits
    · exact fun _ nothing => ⟨nothing, last⟩
  | m107 =>
    cases requested
    cases stepped
    exact ⟨fun _ => .inl (fan.pending_setSpeedFromCommand 0 lastMoveTime),
      fun nonzero => absurd config.power_zero nonzero⟩

theorem regular_new : new.Regular :=
  ⟨nofun, nofun, rfl⟩

variable (regular : fan.Regular)
include regular

theorem Regular.processMove (nextMoveTime : ℚ) : (fan.processMove nextMoveTime).Regular := by
  rcases fan with ⟨gcrq, _ | ⟨callbacks, lookahead⟩⟩
  · exact regular
  have zero := forall_mem_cons.mp regular.lookahead_zero
  rw [processMove_cons]
  refine ⟨forall_mem_append.mpr ⟨regular.rqueue_zero, ?_⟩, zero.2, regular.recorded⟩
  intro request member
  rcases mem_map.mp member with ⟨value, isValue, rfl⟩
  exact zero.1 value isValue

theorem Regular.flush (printTime : ℚ) : (fan.flush config printTime).Regular where
  __ := regular
  rqueue_zero := GCodeRequestQueue.flushLoop_invariant _
    (fun _ _ onlyZero round => onlyZero.of_flushRound round) regular.rqueue_zero _
  recorded := GCodeRequestQueue.flushLoop_invariant (·.device.Recorded)
    (fun _ _ recorded round => GCodeRequestQueue.recorded_of_flushRound round recorded)
    regular.recorded _

theorem WillBeOff.flush (willBeOff : fan.WillBeOff) (printTime : ℚ) :
    (fan.flush config printTime).WillBeOff := by
  rw [WillBeOff, Pending, or_right_comm] at willBeOff
  rcases willBeOff with inQueue | inLookahead
  · have ends : (fan.flush config printTime).gcrq.OnlyZero ∧
        ((fan.flush config printTime).gcrq.rqueue ≠ [] ∨
          (fan.flush config printTime).gcrq.device.lastFanValue = 0) :=
      GCodeRequestQueue.flushLoop_invariant
        (fun queue => queue.OnlyZero ∧ (queue.rqueue ≠ [] ∨ queue.device.lastFanValue = 0))
        (fun queue next holds round =>
          ⟨holds.1.of_flushRound round, .inr (holds.1.flushRound round).1⟩)
        ⟨regular.rqueue_zero, inQueue⟩ _
    rcases ends.2 with waits | off
    · exact .inl (.inl waits)
    · exact .inr off
  · exact .inl (.inr inLookahead)

theorem Regular.setSpeedFromCommand (lastMoveTime : ℚ) :
    (fan.setSpeedFromCommand 0 lastMoveTime).Regular := by
  rcases fan.setSpeedFromCommand_cases 0 lastMoveTime with
    queued | ⟨moves, callbacks, isLookahead, registered⟩
  · rw [queued]
    refine ⟨forall_mem_append.mpr ⟨regular.rqueue_zero, ?_⟩, regular.lookahead_zero,
      regular.recorded⟩
    rintro request (_ | ⟨_, ⟨⟩⟩)
    rfl
  have zero := regular.lookahead_zero
  rw [isLookahead, forall_mem_append, forall_mem_singleton] at zero
  rw [registered]
  refine ⟨regular.rqueue_zero, ?_, regular.recorded⟩
  rw [forall_mem_append, forall_mem_singleton, forall_mem_append, forall_mem_singleton]
  exact ⟨zero.1, zero.2, rfl⟩

theorem Regular.setSpeed (sets : fan.setSpeed config value estPrintTime = some next) :
    next.Regular := by
  rcases fan.setSpeed_eq config value estPrintTime with ⟨_, _, isNext, _, recorded⟩
  cases isNext.symm.trans sets
  exact { regular with recorded := recorded regular.recorded }

/-! ## Runs -/

theorem Regular.step (stepped : fan.step config event = some next) : next.Regular := by
  cases event with
  | addMove =>
    cases stepped
    refine ⟨regular.rqueue_zero, ?_, regular.recorded⟩
    rw [forall_mem_append, forall_mem_singleton]
    exact ⟨regular.lookahead_zero, nofun⟩
  | processMove nextMoveTime =>
    cases stepped
    exact regular.processMove nextMoveTime
  | command given estPrintTime lastMoveTime =>
    cases given with
    | m106 s p =>
      rw [PrinterFan.step, cmd] at stepped
      split at stepped
      · cases stepped
        exact regular
      · exact regular.setSpeed stepped
    | m107 =>
      cases stepped
      exact regular.setSpeedFromCommand lastMoveTime
  | flush printTime =>
    cases stepped
    exact regular.flush printTime

theorem step_of_requests_nothing (nothing : event.requested = none)
    (stepped : fan.step config event = some next) :
    (fan.WillBeOff → next.WillBeOff) ∧ ∀ power, fan.StaysAt power → next.StaysAt power := by
  cases event with
  | addMove =>
    cases stepped
    refine keeps_of_pending_iff (or_congr_right ?_) rfl
    simp
  | processMove nextMoveTime =>
    cases stepped
    refine keeps_of_pending_iff ?_ (fan.device_processMove nextMoveTime)
    rcases fan with ⟨gcrq, _ | ⟨callbacks, lookahead⟩⟩
    · rfl
    · rw [processMove_cons, Pending, Pending]
      simp only [mem_cons, exists_eq_or_imp, ← or_assoc]
      rw [Ne, Ne, Ne, append_eq_nil_iff, map_eq_nil_iff, not_and_or]
  | command given estPrintTime lastMoveTime =>
    cases given with
    | m106 s p =>
      rw [step, cmd, show (FanCommand.m106 s p).requested = none from nothing] at stepped
      cases stepped
      exact ⟨id, fun _ => id⟩
    | m107 => cases nothing
  | flush printTime =>
    cases stepped
    refine ⟨fun willBeOff => willBeOff.flush regular printTime, fun power stays => ?_⟩
    rw [flush_of_not_pending stays.1]
    exact stays

theorem run_of_requests_nothing (nothing : ∀ event ∈ events, event.requested = none)
    (ran : runEvents (step config) fan events = some final) :
    final.Regular ∧ (fan.WillBeOff → final.WillBeOff) ∧
      ∀ power, fan.StaysAt power → final.StaysAt power := by
  induction events generalizing fan with
  | nil =>
    cases ran
    exact ⟨regular, id, fun _ => id⟩
  | cons event events induction =>
    rw [forall_mem_cons] at nothing
    rcases runEvents_cons_eq_some.mp ran with ⟨next, stepped, rest⟩
    rcases step_of_requests_nothing regular nothing.1 stepped with ⟨off, stays⟩
    rcases induction (regular.step stepped) nothing.2 rest with ⟨ends, willBeOff, staysAt⟩
    exact ⟨ends, fun before => willBeOff (off before),
      fun power before => staysAt power (stays power before)⟩

theorem WillBeOff.lastSent_flush (willBeOff : fan.WillBeOff)
    (moved : ∀ callbacks ∈ fan.lookahead, callbacks = []) (beyond : fan.gcrq.Beyond printTime) :
    (fan.flush config printTime).gcrq.device.lastSent = 0 := by
  have isEmpty : (fan.flush config printTime).gcrq.rqueue = [] :=
    GCodeRequestQueue.rqueue_flushNotification regular.rqueue_zero beyond
  rw [← (regular.flush printTime).recorded]
  rcases willBeOff.flush regular printTime with (waits | ⟨callbacks, member, waits⟩) | off
  · exact absurd isEmpty waits
  · exact absurd (moved callbacks member) waits
  · exact off

theorem StaysAt.lastSent_flush (stays : fan.StaysAt power) (printTime : ℚ) :
    (fan.flush config printTime).gcrq.device.lastSent = power := by
  rw [flush_of_not_pending stays.1, ← regular.recorded]
  exact stays.2

end PrinterFan

/-- Of all runs in which a command requests a value for the fan and no later one does, the last
value sent after a flush beyond all requests is the requested one exactly if that is zero, or if
nothing was waiting when the command came. -/
theorem last_fan_command_wins_iff (config : FanConfig) {before after : List FanEvent}
    {command : FanCommand} {value estPrintTime lastMoveTime printTime : ℚ}
    {start final : PrinterFan} (requested : command.requested = some value)
    (others : ∀ event ∈ after, event.requested = none)
    (started : runEvents (PrinterFan.step config) .new before = some start)
    (ran : runEvents (PrinterFan.step config) start
      (.command command estPrintTime lastMoveTime :: after) = some final)
    (moved : ∀ callbacks ∈ final.lookahead, callbacks = [])
    (beyond : final.gcrq.Beyond printTime) :
    (final.flush config printTime).gcrq.device.lastSent = config.power value ↔
      config.power value = 0 ∨ ¬start.Pending := by
  have regular : start.Regular :=
    runEvents_invariant (fun _ _ _ regular stepped => regular.step stepped)
      PrinterFan.regular_new started
  rcases runEvents_cons_eq_some.mp ran with ⟨given, stepped, rest⟩
  rcases PrinterFan.cmd_cases requested stepped with ⟨off, stays⟩
  rcases PrinterFan.run_of_requests_nothing (regular.step stepped) others rest with
    ⟨ends, willBeOff, staysAt⟩
  constructor
  · intro last
    by_contra overtaken
    rw [not_or, not_not] at overtaken
    have zero : (final.flush config printTime).gcrq.device.lastSent = 0 :=
      (willBeOff (off (.inr overtaken.2))).lastSent_flush ends moved beyond
    exact overtaken.1 (last.symm.trans zero)
  · intro holds
    by_cases zero : config.power value = 0
    · rw [zero]
      exact (willBeOff (off (.inl zero))).lastSent_flush ends moved beyond
    · exact (staysAt _ (stays zero (holds.resolve_left zero))).lastSent_flush ends printTime

def defaultFanConfig : FanConfig where
  maxPower := 1
  kickStartTime := 1 / 10
  offBelow := 0
  hasEnablePin := false
  maxPower_pos := zero_lt_one
  maxPower_le := le_rfl
  kickStartTime_nonneg := one_div_nonneg.mpr (Nat.ofNat_nonneg 10)
  offBelow_nonneg := le_rfl
  offBelow_le := zero_le_one

/-- The fan is switched on, and off during a move; when the move is over and the request is
flushed, an `M106` sets the fan to full power again. -/
theorem fan_command_wins_after_flush :
    ∃ start, runEvents (PrinterFan.step defaultFanConfig) .new
        [.command (.m106 none none) 0 0, .addMove, .command .m107 1 1, .processMove 5, .flush 10] =
          some start ∧
      ∃ final, runEvents (PrinterFan.step defaultFanConfig) start
        [.command (.m106 (some 255) none) 20 20] = some final ∧
      (final.flush defaultFanConfig 30).gcrq.device.lastSent = defaultFanConfig.power 1 := by
  refine exists_of_observed (fun start => decide (start.gcrq.rqueue = [] ∧ start.lookahead = [] ∧
      (runEvents (PrinterFan.step defaultFanConfig) start
        [.command (.m106 (some 255) none) 20 20]).map (fun final =>
          (final.gcrq.rqueue, final.lookahead, decide (final.gcrq.nextMinFlushTime ≤ 30))) =
            some ([], [], true))) true (by decide +kernel) fun start started observed => ?_
  rcases of_decide_eq_true observed with ⟨noRequest, noMove, runs⟩
  rcases Option.map_eq_some_iff.mp runs with ⟨final, ran, ends⟩
  simp only [Prod.mk.injEq, decide_eq_true_eq] at ends
  have nothing : ¬start.Pending := by simp [PrinterFan.Pending, noRequest, noMove]
  have beyond : final.gcrq.Beyond 30 := by simp [GCodeRequestQueue.Beyond, ends]
  have requested : (FanCommand.m106 (some 255) none).requested = some 1 := by decide +kernel
  exact ⟨final, ran, (last_fan_command_wins_iff defaultFanConfig requested (by simp) started ran
    (by simp [ends]) beyond).mpr (.inr nothing)⟩

/-- While a move of five seconds is queued, `M107` and then `M106` again: the fan, which was at full
power, is off in the end. -/
theorem last_fan_command_overtaken :
    (runEvents (PrinterFan.step defaultFanConfig) .new
        [.command (.m106 (some 255) none) 0 0, .addMove, .command .m107 1 1,
          .command (.m106 (some 255) none) 2 2, .processMove 5]).map
      (fun fan => (fan.lookahead, (fan.flush defaultFanConfig 10).gcrq.rqueue,
        (fan.flush defaultFanConfig 10).gcrq.device.lastSent)) = some ([], [], 0) ∧
      (FanCommand.m106 (some 255) none).requested = some 1 ∧ defaultFanConfig.power 1 = 1 := by
  decide +kernel

end CentauriCarbon.Outputs
