import CentauriCarbon.Heaters.HeaterPwm
import Mathlib.Data.List.Chain
import Mathlib.Tactic.Linarith

/-! # Power is cut off and kept alive

Whatever a controller asks for, a heater that is off sends nothing but zero, and it sends that in
time. As long as the value at the micro-controller is not zero, it is refreshed before the
micro-controller would give up after `MAX_HEAT_TIME`.
-/

namespace CentauriCarbon.Heaters

open List

variable {Control : ControlBase}

structure Callback where
  readTime : ℚ
  temp : ℚ
  targetTemp : ℚ
  isShutdown : Bool
  isAdcTempFault : Bool

def Callback.IsOff (callback : Callback) : Prop :=
  callback.targetTemp ≤ 0 ∨ callback.isShutdown = true ∨ callback.isAdcTempFault = true

namespace Heater

/-- Target, shutdown and fault may have changed since the last callback. -/
def receive (config : HeaterConfig) (heater : Heater Control) (callback : Callback) :
    Heater Control :=
  { heater with
    targetTemp := callback.targetTemp
    isShutdown := callback.isShutdown
    isAdcTempFault := callback.isAdcTempFault }.temperatureCallback config callback.readTime
      callback.temp

def run (config : HeaterConfig) (heater : Heater Control) (callbacks : List Callback) :
    Heater Control :=
  callbacks.foldl (receive config) heater

variable (config : HeaterConfig) (heater : Heater Control) (callback : Callback)

theorem run_append (earlier latest : List Callback) :
    heater.run config (earlier ++ latest) = (heater.run config earlier).run config latest :=
  foldl_append

theorem receive_cases (received : heater.receive config callback = result) :
    result.lastTempTime = callback.readTime ∧
      ∃ value, (callback.IsOff → value = 0) ∧
        ((callback.readTime < heater.nextPwmTime ∨ heater.lastPwmValue = 0) ∧
            result.nextPwmTime = heater.nextPwmTime ∧ result.lastPwmValue = heater.lastPwmValue ∧
            result.sent = heater.sent ∨
          result.nextPwmTime = callback.readTime + config.pwmDelay + 75 / 100 * maxHeatTime ∧
            result.lastPwmValue = value ∧
            result.sent = heater.sent ++ [⟨callback.readTime + config.pwmDelay, value⟩]) := by
  subst received
  rw [receive, temperatureCallback]
  generalize Control.temperatureUpdate heater.control callback.readTime callback.temp
    callback.targetTemp = update
  rcases update with ⟨value, control⟩
  dsimp only
  generalize before : ({ heater with
    targetTemp := callback.targetTemp
    isShutdown := callback.isShutdown
    isAdcTempFault := callback.isAdcTempFault
    lastTemp := callback.temp
    lastTempTime := callback.readTime
    control } : Heater Control) = prepared
  -- A value is kept back if the last one is zero or young; otherwise it is sent.
  by_cases suppressed : prepared.IsSuppressed callback.readTime (prepared.allowedValue value)
  · have young := suppressed.1
    rw [setPwm, if_pos suppressed, ← before]
    rw [← before] at young
    exact ⟨rfl, 0, fun _ => rfl, .inl ⟨young, rfl, rfl, rfl⟩⟩
  rw [setPwm, if_neg suppressed]
  refine ⟨by rw [← before], prepared.allowedValue value, fun off => ?_, .inr ⟨rfl, rfl, ?_⟩⟩
  · rw [allowedValue, ← before]
    rcases off with target | shutdown | fault
    · exact if_pos (.inl target)
    · exact if_pos (.inr shutdown)
    · rw [fault]
      exact ite_self 0
  · rw [← before]

variable {config heater callback}

def LastSent (heater : Heater Control) : Prop :=
  ∀ command ∈ heater.sent.getLast?, command.value = heater.lastPwmValue

theorem LastSent.receive (lastSent : heater.LastSent) :
    (heater.receive config callback).LastSent := by
  rw [LastSent]
  rcases (heater.receive_cases config callback rfl).2 with
    ⟨value, _, ⟨_, _, last, sent⟩ | ⟨_, last, sent⟩⟩
  · rw [sent, last]
    exact lastSent
  · rw [sent, last, getLast?_concat]
    rintro command ⟨⟩
    rfl

theorem LastSent.run (lastSent : heater.LastSent) (callbacks : List Callback) :
    (heater.run config callbacks).LastSent := by
  induction callbacks generalizing heater with
  | nil => exact lastSent
  | cons callback callbacks induction => exact induction lastSent.receive

/-! ## Cut-off -/

/-- From `time` on only zero was sent, and a last value that is not zero is old enough to be
replaced after `pwm_delay` and 3.75 seconds. -/
structure CutOff (config : HeaterConfig) (time : ℚ) (heater : Heater Control) : Prop where
  zero_sent : ∀ command ∈ heater.sent, time + config.pwmDelay ≤ command.pwmTime → command.value = 0
  replaceable : heater.nextPwmTime < time + config.pwmDelay + 75 / 100 * maxHeatTime ∨
    heater.lastPwmValue = 0

variable {callbacks : List Callback}

theorem CutOff.receive (cutOff : CutOff config time heater)
    (off : time ≤ callback.readTime → callback.IsOff) :
    CutOff config time (heater.receive config callback) := by
  rcases (heater.receive_cases config callback rfl).2 with
    ⟨value, zero, ⟨_, next, last, sent⟩ | ⟨next, last, sent⟩⟩
  · exact ⟨sent ▸ cutOff.zero_sent, next ▸ last ▸ cutOff.replaceable⟩
  refine ⟨?_, ?_⟩
  · rw [sent, forall_mem_append]
    refine ⟨cutOff.zero_sent, fun command member late => ?_⟩
    rw [mem_singleton.mp member] at late ⊢
    exact zero (off (le_of_add_le_add_right late))
  rw [next, last]
  by_cases late : time ≤ callback.readTime
  · exact .inr (zero (off late))
  · exact .inl (by linarith)

theorem lastPwmValue_receive_of_zero (off : callback.IsOff) (zero : heater.lastPwmValue = 0) :
    (heater.receive config callback).lastPwmValue = 0 := by
  rcases (heater.receive_cases config callback rfl).2 with
    ⟨value, isZero, ⟨_, _, last, _⟩ | ⟨_, last, _⟩⟩
  · rw [last, zero]
  · rw [last, isZero off]

theorem CutOff.run (cutOff : CutOff config time heater)
    (off : ∀ callback ∈ callbacks, time ≤ callback.readTime → callback.IsOff) :
    CutOff config time (heater.run config callbacks) := by
  induction callbacks generalizing heater with
  | nil => exact cutOff
  | cons callback callbacks induction =>
    rw [forall_mem_cons] at off
    exact induction (cutOff.receive off.1) off.2

theorem lastPwmValue_run_of_zero (off : ∀ callback ∈ callbacks, callback.IsOff)
    (zero : heater.lastPwmValue = 0) : (heater.run config callbacks).lastPwmValue = 0 := by
  induction callbacks generalizing heater with
  | nil => exact zero
  | cons callback callbacks induction =>
    rw [forall_mem_cons] at off
    exact induction off.2 (lastPwmValue_receive_of_zero off.1 zero)

theorem CutOff.lastPwmValue_run (cutOff : CutOff config time heater)
    (increasing : callbacks.Pairwise fun first second => first.readTime < second.readTime)
    (off : ∀ callback ∈ callbacks, time ≤ callback.readTime → callback.IsOff)
    (late : ∃ callback ∈ callbacks, time + config.pwmDelay + 75 / 100 * maxHeatTime ≤
      callback.readTime) : (heater.run config callbacks).lastPwmValue = 0 := by
  have delay := config.pwmDelay_nonneg
  induction callbacks generalizing heater with
  | nil =>
    rcases late with ⟨_, member, _⟩
    cases member
  | cons callback callbacks induction =>
    rw [forall_mem_cons] at off
    rw [pairwise_cons] at increasing
    rcases late with ⟨found, member, late⟩
    change ((heater.receive config callback).run config callbacks).lastPwmValue = 0
    rcases mem_cons.mp member with rfl | later
    · have after : time ≤ found.readTime := by
        rw [maxHeatTime] at late
        linarith
      have rest : ∀ other ∈ callbacks, other.IsOff := fun other next =>
        off.2 other next (after.trans (increasing.1 other next).le)
      apply lastPwmValue_run_of_zero rest
      rcases cutOff.replaceable with old | zero
      · rcases (heater.receive_cases config found rfl).2 with
          ⟨value, isZero, ⟨kept, _, last, _⟩ | ⟨_, last, _⟩⟩
        · rcases kept with young | zero
          · exact absurd (young.trans old) (not_lt_of_ge late)
          · rw [last, zero]
        · rw [last, isZero (off.1 after)]
      · exact lastPwmValue_receive_of_zero (off.1 after) zero
    · exact induction (cutOff.receive off.1) increasing.2 off.2 ⟨found, later, late⟩

/-! ## Keeping alive -/

def Refreshed (first second : PwmCommand) : Prop :=
  first.value ≠ 0 → second.pwmTime - first.pwmTime < maxHeatTime

structure Alive (config : HeaterConfig) (start during : List PwmCommand)
    (heater : Heater Control) : Prop where
  sent_eq : heater.sent = start ++ during
  refreshed : during.IsChain Refreshed
  last_young : ∀ command ∈ during.getLast?, command.value ≠ 0 →
    heater.nextPwmTime = command.pwmTime + 75 / 100 * maxHeatTime ∧
      (heater.lastTempTime + config.pwmDelay = command.pwmTime ∨
        heater.lastTempTime < heater.nextPwmTime ∧ config.pwmDelay < 5 / 4)

variable {start during : List PwmCommand}

section

variable (alive : Alive config start during heater) (lastSent : heater.LastSent)
include alive lastSent

theorem Alive.last_value (isLast : command ∈ during.getLast?) :
    command.value = heater.lastPwmValue := by
  apply lastSent
  rw [alive.sent_eq, getLast?_append, Option.mem_def.mp isLast]
  rfl

theorem Alive.receive (short : period + config.pwmDelay < 5 / 4)
    (near : during ≠ [] → heater.lastTempTime < callback.readTime ∧
      callback.readTime - heater.lastTempTime ≤ period) :
    ∃ during, Alive config start during (heater.receive config callback) := by
  have delay := config.pwmDelay_nonneg
  have close : ∀ command ∈ during.getLast?, heater.lastTempTime < callback.readTime ∧
      callback.readTime - heater.lastTempTime ≤ period := by
    rintro command isLast
    refine near fun none => ?_
    rw [none] at isLast
    cases isLast
  rcases heater.receive_cases config callback rfl with
    ⟨time, value, _, ⟨kept, next, last, sent⟩ | ⟨next, last, sent⟩⟩
  · refine ⟨during, sent ▸ alive.sent_eq, alive.refreshed, ?_⟩
    rw [next, time]
    intro command isLast nonzero
    rcases close command isLast with ⟨later, gap⟩
    refine ⟨(alive.last_young command isLast nonzero).1, .inr ⟨?_, by linarith⟩⟩
    rcases kept with young | zero
    · exact young
    · exact absurd ((alive.last_value lastSent isLast).trans zero) nonzero
  refine ⟨during ++ [⟨callback.readTime + config.pwmDelay, value⟩], ?_, ?_, ?_⟩
  · rw [sent, alive.sent_eq, append_assoc]
  · rw [isChain_append]
    refine ⟨alive.refreshed, .singleton _, fun first isLast second isNew nonzero => ?_⟩
    cases isNew
    rcases close first isLast with ⟨later, gap⟩
    rcases alive.last_young first isLast nonzero with ⟨refresh, sentNow | ⟨young, _⟩⟩
    · rw [maxHeatTime]
      linarith
    · rw [maxHeatTime] at refresh ⊢
      linarith
  · rw [next, time, getLast?_concat]
    rintro command ⟨⟩ _
    exact ⟨rfl, .inl rfl⟩

theorem Alive.run (short : period + config.pwmDelay < 5 / 4)
    (increasing : callbacks.Pairwise fun first second => first.readTime < second.readTime)
    (close : callbacks.IsChain fun first second => second.readTime - first.readTime ≤ period)
    (near : during ≠ [] → ∀ callback ∈ callbacks.head?, heater.lastTempTime < callback.readTime ∧
      callback.readTime - heater.lastTempTime ≤ period) :
    ∃ during, Alive config start during (heater.run config callbacks) := by
  induction callbacks generalizing heater during with
  | nil => exact ⟨during, alive⟩
  | cons callback callbacks induction =>
    rw [pairwise_cons] at increasing
    rw [isChain_cons] at close
    rcases alive.receive lastSent short fun some => near some callback rfl with ⟨_, received⟩
    refine induction received lastSent.receive increasing.2 close.2 fun _ next isHead => ?_
    rw [(heater.receive_cases config callback rfl).1]
    exact ⟨increasing.1 next (mem_of_mem_head? isHead), close.1 next isHead⟩

end

theorem lastTempTime_run (config : HeaterConfig) (heater : Heater Control)
    (isLast : callback ∈ callbacks.getLast?) :
    (heater.run config callbacks).lastTempTime = callback.readTime := by
  rcases getLast?_eq_some_iff.mp isLast with ⟨earlier, rfl⟩
  rw [run_append]
  exact (receive_cases config _ _ rfl).1

end Heater

/-- Once a heater is off, it sends no value but zero, and zero is the last value sent after
`pwm_delay` and 3.75 seconds. While callbacks come at most `period` apart, a value that is not zero
is replaced in less than `MAX_HEAT_TIME`; the last of them is not older at the last callback. -/
theorem power_cut_off_and_kept_alive (config : HeaterConfig) (control : Control.State)
    (callbacks : List Callback)
    (increasing : callbacks.Pairwise fun first second => first.readTime < second.readTime) :
    let heater := (Heater.new config control).run config callbacks
    (∀ time, (∀ callback ∈ callbacks, time ≤ callback.readTime → callback.IsOff) →
      (∀ command ∈ heater.sent, time + config.pwmDelay ≤ command.pwmTime → command.value = 0) ∧
      ((∃ callback ∈ callbacks, time + config.pwmDelay + 375 / 100 ≤ callback.readTime) →
        ∀ command ∈ heater.sent.getLast?, command.value = 0)) ∧
    ∀ period earlier latest, callbacks = earlier ++ latest →
      period + config.pwmDelay < 125 / 100 →
      (latest.IsChain fun first second => second.readTime - first.readTime ≤ period) →
      ∃ during, heater.sent = ((Heater.new config control).run config earlier).sent ++ during ∧
        (during.IsChain fun first second =>
          first.value ≠ 0 → second.pwmTime - first.pwmTime < maxHeatTime) ∧
        ∀ command ∈ during.getLast?, command.value ≠ 0 →
          ∀ callback ∈ callbacks.getLast?,
            callback.readTime + config.pwmDelay - command.pwmTime < maxHeatTime := by
  have refresh : 75 / 100 * maxHeatTime = 375 / 100 := by decide +kernel
  have lastSent : ∀ callbacks, ((Heater.new config control).run config callbacks).LastSent := by
    refine Heater.LastSent.run ?_
    rintro command ⟨⟩
  constructor
  · intro time off
    have fresh : Heater.CutOff config time (Heater.new config control) := ⟨nofun, .inr rfl⟩
    refine ⟨(fresh.run off).zero_sent, fun late command isLast => ?_⟩
    rw [lastSent callbacks command isLast]
    rw [← refresh] at late
    exact fresh.lastPwmValue_run increasing off late
  rintro period earlier latest rfl short close
  have started : Heater.Alive config _ [] ((Heater.new config control).run config earlier) :=
    ⟨(append_nil _).symm, .nil, nofun⟩
  rcases started.run (lastSent earlier) (by linarith) (pairwise_append.mp increasing).2.1
    close (fun some => absurd rfl some) with ⟨during, alive⟩
  rw [← Heater.run_append] at alive
  refine ⟨during, alive.sent_eq, alive.refreshed,
    fun command isLast nonzero callback lastCallback => ?_⟩
  have time := Heater.lastTempTime_run config (Heater.new config control) lastCallback
  rcases alive.last_young command isLast nonzero with ⟨next, sentNow | ⟨young, delay⟩⟩
  · rw [← time, sentNow, sub_self]
    decide +kernel
  · rw [next, time] at young
    linarith

/-- A bed that is reported every 0.9 seconds is heated at full power, which is sent again in time,
and then switched off. -/
theorem bed_power_cut_off :
    let bed : HeaterConfig := {
      pwmDelay := 3 / 10
      maxPower := 1
      smoothTime := 1
      minExtrudeTemp := 170
      pwmDelay_nonneg := by decide +kernel
      maxPower_pos := by decide +kernel
      maxPower_le := by decide +kernel
      smoothTime_pos := by decide +kernel }
    let callbacks := (range' 1 12).map fun k =>
      (⟨9 / 10 * k, 20, if k ≤ 6 then 60 else 0, false, false⟩ : Callback)
    let heater := (Heater.new bed false : Heater (controlBangBang 1 2)).run bed callbacks
    heater.sent = [⟨12 / 10, 1⟩, ⟨57 / 10, 1⟩, ⟨66 / 10, 0⟩] ∧
      (∀ command ∈ heater.sent.getLast?, command.value = 0) ∧
      heater.sent.IsChain Heater.Refreshed := by
  intro bed callbacks heater
  have increasing : callbacks.Pairwise fun first second => first.readTime < second.readTime := by
    decide +kernel
  have off : ∀ callback ∈ callbacks, 6 ≤ callback.readTime → callback.targetTemp ≤ 0 := by
    decide +kernel
  rcases @power_cut_off_and_kept_alive (controlBangBang 1 2) bed false callbacks increasing with
    ⟨cutOff, keptAlive⟩
  rcases keptAlive (9 / 10) [] callbacks rfl (by decide +kernel) (by decide +kernel) with
    ⟨during, sent, refreshed, -⟩
  refine ⟨by decide +kernel, (cutOff 6 fun callback member late => ?_).2 ?_, ?_⟩
  · exact .inl (off callback member late)
  · exact ⟨_, getLast_mem (cons_ne_nil _ _), by decide +kernel⟩
  · rw [sent]
    exact refreshed

end CentauriCarbon.Heaters
