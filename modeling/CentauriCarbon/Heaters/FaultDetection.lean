import CentauriCarbon.Heaters.HeaterCheck
import Mathlib.Data.Rat.Floor

/-! # Detection of a heater that does not heat

A heater that stays below its target and gains nothing is reported. It may reach the goal of an
earlier approach once more, and then the time for the next gain starts again; after that no goal is
reached. From there on the fault is reported as soon as both the time for the gain is over and the
error is large enough.
-/

namespace CentauriCarbon.Heaters

namespace HeaterCheck

variable {config : CheckConfig} {check : HeaterCheck} {sample : Sample}

def deficit (config : CheckConfig) (sample : Sample) : ℚ :=
  (sample.target - config.hysteresis) - sample.temp

/-! ## One check of a cold heater -/

section Cold

variable (cold : ¬sample.IsHealthy config)
include cold

section

variable (quiet : check.approachingTarget = false)
include quiet

theorem checkEvent_new_target (changed : sample.target ≠ check.lastTarget) :
    (check.checkEvent config sample).check =
      { check with
        approachingTarget := true
        startingApproach := true
        goalTemp := sample.temp + config.heatingGain
        goalSystime := sample.eventtime + config.checkGainTime
        error := check.error + deficit config sample
        lastTarget := sample.target } := by
  rw [checkEvent, if_neg cold, checkCold]
  simp [quiet, changed, deficit]

theorem checkEvent_adding (same : sample.target = check.lastTarget)
    (small : check.error + deficit config sample < config.maxError) :
    (check.checkEvent config sample).check =
      { check with error := check.error + deficit config sample } := by
  rw [checkEvent, if_neg cold, checkCold]
  rw [deficit, same] at small
  simp [quiet, same, not_le_of_gt small, deficit]

theorem checkEvent_reported (same : sample.target = check.lastTarget)
    (large : config.maxError ≤ check.error + deficit config sample) :
    ∃ error, (error = check.error + deficit config sample ∨ error = config.maxError) ∧
      (check.checkEvent config sample).check =
        { check with isVerifyHeaterFault := true, error } := by
  rw [checkEvent, if_neg cold, checkCold]
  rw [deficit, same] at large
  cases fault : check.isVerifyHeaterFault with
  | false =>
    simp [quiet, same, large, heaterFault, deficit]
  | true =>
    simp [quiet, same, large]

end

variable (approaching : check.approachingTarget)
include approaching

theorem checkEvent_goal (reached : check.goalTemp ≤ sample.temp) :
    (check.checkEvent config sample).check =
      { check with
        startingApproach := false
        error := 0
        goalTemp := sample.temp + config.heatingGain
        goalSystime := sample.eventtime + config.checkGainTime
        lastTarget := sample.target } := by
  rw [checkEvent, if_neg cold, checkCold]
  simp [approaching, reached]

theorem checkEvent_timeout (below : sample.temp < check.goalTemp)
    (late : check.goalSystime ≤ sample.eventtime) : (check.checkEvent config sample).check =
      { check with
        approachingTarget := false
        isVerifyHeaterFault := false
        error := check.error + deficit config sample
        lastTarget := sample.target } := by
  rw [checkEvent, if_neg cold, checkCold]
  simp [approaching, not_le_of_gt below, late, clearFault, deficit]

theorem checkEvent_waiting (below : sample.temp < check.goalTemp)
    (early : ¬check.goalSystime ≤ sample.eventtime) :
    ∃ goalTemp, (goalTemp = check.goalTemp ∨ goalTemp = sample.temp + config.heatingGain) ∧
      (check.checkEvent config sample).check =
        { check with
          goalTemp
          error := check.error + deficit config sample
          lastTarget := sample.target } := by
  rw [checkEvent, if_neg cold, checkCold]
  cases starting : check.startingApproach with
  | false =>
    simp [approaching, not_le_of_gt below, early, deficit]
  | true =>
    refine ⟨min check.goalTemp (sample.temp + config.heatingGain), min_choice _ _, ?_⟩
    simp [approaching, not_le_of_gt below, early, deficit]

end Cold

structure Reachable (config : CheckConfig) (time : ℚ) (check : HeaterCheck) : Prop where
  error_nonneg : 0 ≤ check.error
  goalSystime_le : check.approachingTarget = true → check.goalSystime ≤ time + config.checkGainTime

theorem Reachable.checkEvent (reachable : Reachable config time check)
    (before : sample.eventtime ≤ time) :
    Reachable config time (check.checkEvent config sample).check := by
  have goal : sample.eventtime + config.checkGainTime ≤ time + config.checkGainTime := by
    linarith
  by_cases healthy : sample.IsHealthy config
  · rw [HeaterCheck.checkEvent, if_pos healthy, checkHealthy]
    refine ⟨?_, fun approaching => ?_⟩
    · dsimp only [clearFault]
      split
      · exact le_rfl
      · exact reachable.error_nonneg
    · cases approaching
  have larger : 0 ≤ check.error + deficit config sample :=
    add_nonneg reachable.error_nonneg (sub_nonneg.mpr (not_le.mp (not_or.mp healthy).1).le)
  cases approaching : check.approachingTarget with
  | false =>
    by_cases same : sample.target = check.lastTarget
    · by_cases large : config.maxError ≤ check.error + deficit config sample
      · rcases checkEvent_reported healthy approaching same large with
          ⟨error, rfl | rfl, reported⟩
        · rw [reported]
          exact ⟨larger, reachable.goalSystime_le⟩
        · rw [reported]
          exact ⟨config.maxError_nonneg, reachable.goalSystime_le⟩
      · rw [checkEvent_adding healthy approaching same (lt_of_not_ge large)]
        exact ⟨larger, reachable.goalSystime_le⟩
    · rw [checkEvent_new_target healthy approaching same]
      exact ⟨larger, fun _ => goal⟩
  | true =>
    by_cases reached : check.goalTemp ≤ sample.temp
    · rw [checkEvent_goal healthy approaching reached]
      exact ⟨le_rfl, fun _ => goal⟩
    have below := lt_of_not_ge reached
    by_cases late : check.goalSystime ≤ sample.eventtime
    · rw [checkEvent_timeout healthy approaching below late]
      exact ⟨larger, nofun⟩
    · rcases checkEvent_waiting healthy approaching below late with ⟨_, _, waiting⟩
      rw [waiting]
      exact ⟨larger, fun _ => reachable.goalSystime_le approaching⟩

theorem Reachable.run (reachable : Reachable config time check)
    (before : ∀ sample ∈ samples, sample.eventtime ≤ time) :
    Reachable config time (check.run config samples) := by
  induction samples generalizing check with
  | nil => exact reachable
  | cons sample samples induction =>
    rw [List.forall_mem_cons] at before
    exact induction (reachable.checkEvent before.1) before.2

theorem reachable_new (config : CheckConfig) (time : ℚ) : Reachable config time .new :=
  ⟨le_rfl, nofun⟩

end HeaterCheck

/-! ## A heater that does not heat -/

/-- From the check at `start` on, once a second, the temperature stays below the target and the
hysteresis by `d`, and does not reach the lowest temperature seen since then plus
`heating_gain`. -/
structure NotHeating (config : CheckConfig) (target d : ℚ) (temps : ℕ → ℚ) : Prop where
  target_pos : 0 < target
  d_pos : 0 < d
  cold : ∀ k, temps k ≤ target - config.hysteresis - d
  flat : ∀ j k, j ≤ k → temps k < temps j + config.heatingGain

namespace HeaterCheck

def stateAt (config : CheckConfig) (check : HeaterCheck) (start target : ℚ) (temps : ℕ → ℚ) :
    ℕ → HeaterCheck
  | 0 => check
  | k + 1 =>
    ((stateAt config check start target temps k).checkEvent config
      ⟨start + k, temps k, target⟩).check

def DetectedWithin (state : ℕ → HeaterCheck) (m k : ℕ) : Prop :=
  ∃ n ≤ m, (state (k + n + 1)).isVerifyHeaterFault = true

theorem DetectedWithin.succ (detected : DetectedWithin state m (k + 1)) :
    DetectedWithin state (m + 1) k := by
  rcases detected with ⟨n, bounded, detected⟩
  refine ⟨n + 1, Nat.succ_le_succ bounded, ?_⟩
  rwa [← add_assoc, add_right_comm k n 1]

structure Settled (start target : ℚ) (temps : ℕ → ℚ) (k : ℕ) (rest : ℚ)
    (check : HeaterCheck) : Prop where
  lastTarget_eq : check.lastTarget = target
  error_nonneg : 0 ≤ check.error
  goalSystime_le : check.approachingTarget = true → check.goalSystime ≤ start + k + rest
  below : check.approachingTarget = true → ∀ j, k ≤ j → temps j < check.goalTemp

theorem Settled.mono {temps : ℕ → ℚ} (settled : Settled start target temps k rest check)
    (le : rest ≤ longer) : Settled start target temps k longer check :=
  { settled with
    goalSystime_le := fun approaching => by linarith [settled.goalSystime_le approaching] }

section

variable (notHeating : NotHeating config target d temps)
include notHeating

theorem isCold (eventtime : ℚ) (k : ℕ) :
    ¬(⟨eventtime, temps k, target⟩ : Sample).IsHealthy config := by
  have cold := notHeating.cold k
  have positive := notHeating.d_pos
  rintro (near | off)
  · dsimp only at near
    linarith
  · exact absurd off (not_le_of_gt notHeating.target_pos)

theorem le_deficit (eventtime : ℚ) (k : ℕ) : d ≤ deficit config ⟨eventtime, temps k, target⟩ := by
  have cold := notHeating.cold k
  rw [deficit]
  linarith

variable {start : ℚ} {state : ℕ → HeaterCheck} (follows : ∀ k : ℕ, state (k + 1) =
  ((state k).checkEvent config ⟨start + k, temps k, target⟩).check)
include follows

/-- Without an approach the fault is reported once the error has added up. -/
theorem detected_of_quiet (m k : ℕ) (quiet : (state k).approachingTarget = false)
    (same : (state k).lastTarget = target)
    (enough : config.maxError ≤ (state k).error + (m + 1) * d) : DetectedWithin state m k := by
  have cold := isCold notHeating (start + k) k
  have added := le_deficit notHeating (start + k) k
  by_cases large : config.maxError ≤ (state k).error + deficit config ⟨start + k, temps k, target⟩
  · rcases checkEvent_reported cold quiet same.symm large with ⟨_, _, reported⟩
    refine ⟨0, Nat.zero_le m, ?_⟩
    rw [add_zero, follows, reported]
  have next := (follows k).trans (checkEvent_adding cold quiet same.symm (lt_of_not_ge large))
  cases m with
  | zero =>
    rw [Nat.cast_zero, zero_add, one_mul] at enough
    exact absurd (enough.trans (add_le_add_right added _)) large
  | succ m =>
    push_cast at enough
    refine (detected_of_quiet m (k + 1) ?_ ?_ ?_).succ
    · rw [next]
      exact quiet
    · rw [next]
      exact same
    · rw [next]
      linarith

/-- With a settled approach it is reported once the error has added up and the time is over. -/
theorem detected_of_settled (i m k : ℕ) (settled : Settled start target temps k i (state k))
    (later : i + 1 ≤ m) (enough : config.maxError ≤ (state k).error + (m + 1) * d) :
    DetectedWithin state m k := by
  have cold := isCold notHeating (start + k) k
  have added := le_deficit notHeating (start + k) k
  cases approaching : (state k).approachingTarget with
  | false => exact detected_of_quiet notHeating follows m k approaching settled.lastTarget_eq enough
  | true =>
    obtain ⟨m, rfl⟩ : ∃ less, m = less + 1 := ⟨m - 1, by omega⟩
    push_cast at enough
    have below := settled.below approaching
    have ends := settled.goalSystime_le approaching
    by_cases late : (state k).goalSystime ≤ start + k
    · have next := (follows k).trans (checkEvent_timeout cold approaching (below k le_rfl) late)
      refine (detected_of_quiet notHeating follows m (k + 1) ?_ ?_ ?_).succ
      · rw [next]
      · rw [next]
      · rw [next]
        linarith
    rcases checkEvent_waiting cold approaching (below k le_rfl) late with
      ⟨goalTemp, goal, waiting⟩
    have next := (follows k).trans waiting
    cases i with
    | zero =>
      rw [Nat.cast_zero, add_zero] at ends
      exact absurd ends late
    | succ i =>
      push_cast at ends
      refine (detected_of_settled i m (k + 1) ?_ (by omega) ?_).succ
      · rw [next]
        refine ⟨rfl, ?_, fun _ => ?_, fun _ j after => ?_⟩
        · linarith [settled.error_nonneg, notHeating.d_pos]
        · push_cast
          linarith
        rcases goal with rfl | rfl
        · exact below j (by omega)
        · exact notHeating.flat k j (by omega)
      · rw [next]
        linarith

/-- An approach to an earlier goal ends, or it reaches the goal once more. -/
theorem settles_of_approaching (i k : ℕ) (approaching : (state k).approachingTarget)
    (error_nonneg : 0 ≤ (state k).error) (ends : (state k).goalSystime ≤ start + k + i) :
    ∃ n ≤ i, Settled start target temps (k + n + 1) (config.checkGainTime - 1)
      (state (k + n + 1)) := by
  have cold := isCold notHeating (start + k) k
  have added := le_deficit notHeating (start + k) k
  have positive := notHeating.d_pos
  by_cases reached : (state k).goalTemp ≤ temps k
  · refine ⟨0, Nat.zero_le i, ?_⟩
    rw [add_zero, follows, checkEvent_goal cold approaching reached]
    refine ⟨rfl, le_rfl, fun _ => ?_, fun _ j after => ?_⟩
    · push_cast
      linarith
    · exact notHeating.flat k j (by omega)
  have below := lt_of_not_ge reached
  by_cases late : (state k).goalSystime ≤ start + k
  · refine ⟨0, Nat.zero_le i, ?_⟩
    rw [add_zero, follows, checkEvent_timeout cold approaching below late]
    exact ⟨rfl, by linarith, nofun, nofun⟩
  rcases checkEvent_waiting cold approaching below late with ⟨goalTemp, _, waiting⟩
  have next := (follows k).trans waiting
  cases i with
  | zero =>
    rw [Nat.cast_zero, add_zero] at ends
    exact absurd ends late
  | succ i =>
    push_cast at ends
    rcases settles_of_approaching i (k + 1) (by rw [next]; exact approaching)
      (by rw [next]; dsimp only; linarith) (by rw [next]; push_cast; linarith) with
      ⟨n, bounded, settled⟩
    refine ⟨n + 1, Nat.succ_le_succ bounded, ?_⟩
    rwa [← add_assoc, add_right_comm k n 1]

/-- Whatever approach was under way, it is settled after the time for a gain. -/
theorem settles (reachable : Reachable config start (state 0)) :
    ∃ k : ℕ, (k : ℚ) ≤ config.checkGainTime + 2 ∧
      Settled start target temps k (config.checkGainTime - 1) (state k) := by
  have gainTime := config.checkGainTime_ge
  cases approaching : (state 0).approachingTarget with
  | false =>
    by_cases same : (state 0).lastTarget = target
    · refine ⟨0, ?_, same, reachable.error_nonneg, fun impossible => ?_, fun impossible => ?_⟩
      · push_cast
        linarith
      · exact Bool.noConfusion (approaching.symm.trans impossible)
      · exact Bool.noConfusion (approaching.symm.trans impossible)
    have cold := isCold notHeating (start + (0 : ℕ)) 0
    have added := le_deficit notHeating (start + (0 : ℕ)) 0
    refine ⟨1, ?_, ?_⟩
    · push_cast
      linarith
    rw [← zero_add 1, follows, checkEvent_new_target cold approaching (Ne.symm same)]
    refine ⟨rfl, ?_, fun _ => ?_, fun _ j _ => ?_⟩
    · exact add_nonneg reachable.error_nonneg (notHeating.d_pos.le.trans added)
    · push_cast
      linarith
    · exact notHeating.flat 0 j (Nat.zero_le j)
  | true =>
    have ends : (state 0).goalSystime ≤ start + (0 : ℕ) + (⌈config.checkGainTime⌉₊ : ℕ) := by
      have bounded := reachable.goalSystime_le approaching
      have ceil := Nat.le_ceil config.checkGainTime
      linarith
    have ceil := Nat.ceil_lt_add_one (zero_le_one.trans gainTime)
    rcases settles_of_approaching notHeating follows _ 0 approaching reachable.error_nonneg ends
      with ⟨n, bounded, settled⟩
    refine ⟨0 + n + 1, ?_, settled⟩
    have few : (n : ℚ) ≤ (⌈config.checkGainTime⌉₊ : ℕ) := Nat.cast_le.mpr bounded
    push_cast
    linarith

end

end HeaterCheck

/-- In every state that checks can reach, a heater that stays below its target by the hysteresis
and `d` and gains nothing is in fault at some check within
`check_gain_time + max(check_gain_time, max_error / d) + 4` seconds. -/
theorem fault_detected (config : CheckConfig) (history : List Sample) (start target d : ℚ)
    (temps : ℕ → ℚ) (before : ∀ sample ∈ history, sample.eventtime ≤ start)
    (notHeating : NotHeating config target d temps) :
    ∃ n : ℕ, (n : ℚ) ≤
        config.checkGainTime + max config.checkGainTime (config.maxError / d) + 4 ∧
      (HeaterCheck.stateAt config (HeaterCheck.new.run config history) start target temps
        (n + 1)).isVerifyHeaterFault = true := by
  have gainTime := config.checkGainTime_ge
  have reachable := (HeaterCheck.reachable_new config start).run before
  have follows (k : ℕ) : HeaterCheck.stateAt config (HeaterCheck.new.run config history) start
    target temps (k + 1) = _ := rfl
  rcases HeaterCheck.settles notHeating follows reachable with ⟨k, early, settled⟩
  have positive := notHeating.d_pos
  have restNonneg : 0 ≤ config.checkGainTime - 1 := sub_nonneg.mpr gainTime
  have errorNonneg : 0 ≤ config.maxError / d := div_nonneg config.maxError_nonneg positive.le
  set i := ⌈config.checkGainTime - 1⌉₊
  set j := ⌈config.maxError / d⌉₊
  have restCeil : (i : ℚ) < config.checkGainTime - 1 + 1 := Nat.ceil_lt_add_one restNonneg
  have errorCeil : (j : ℚ) < config.maxError / d + 1 := Nat.ceil_lt_add_one errorNonneg
  -- The error of `j` checks is enough, whatever it was before.
  have enough : config.maxError ≤ (HeaterCheck.stateAt config (HeaterCheck.new.run config history)
      start target temps k).error + ((max (i + 1) j : ℕ) + 1) * d := by
    have many : config.maxError / d ≤ (max (i + 1) j : ℕ) :=
      (Nat.le_ceil _).trans (Nat.cast_le.mpr (le_max_right _ _))
    rw [div_le_iff₀ positive] at many
    linarith [settled.error_nonneg]
  rcases HeaterCheck.detected_of_settled notHeating follows i (max (i + 1) j) k
    (settled.mono (Nat.le_ceil _)) (le_max_left _ _) enough with ⟨n, bounded, detected⟩
  refine ⟨k + n, ?_, detected⟩
  have few : (n : ℚ) ≤ config.checkGainTime + 1 ∨ (n : ℚ) ≤ config.maxError / d + 1 := by
    rcases le_max_iff.mp bounded with byTime | byError
    · have cast : (n : ℚ) ≤ (i : ℚ) + 1 := by exact_mod_cast byTime
      exact .inl (by linarith)
    · have cast : (n : ℚ) ≤ (j : ℚ) := Nat.cast_le.mpr byError
      exact .inr (by linarith)
  have timeLe := le_max_left config.checkGainTime (config.maxError / d)
  have errorLe := le_max_right config.checkGainTime (config.maxError / d)
  push_cast
  rcases few with few | few
  · linarith
  · linarith

/-- A heater that is switched on at 20 degrees and stays there. -/
theorem fault_detected_cold :
    ∃ n : ℕ, (n : ℚ) ≤ 20 + max 20 (120 / 175) + 4 ∧
      (HeaterCheck.stateAt .default (HeaterCheck.new.run .default [⟨0, 20, 200⟩]) 1 200
        (fun _ => 20) (n + 1)).isVerifyHeaterFault = true :=
  fault_detected .default [⟨0, 20, 200⟩] 1 200 175 (fun _ => 20) (by decide +kernel)
    ⟨by decide +kernel, by decide +kernel, fun _ => by decide +kernel,
      fun _ _ _ => by decide +kernel⟩

/-- A heater that gains one degree in 18 seconds reaches the goal of the check before, and is not
reported within `check_gain_time + max_error / d + 4` seconds. -/
theorem fault_detected_late :
    NotHeating .default 200 173 (fun k => if k < 18 then 21 else 22) ∧
      ∀ n : ℕ, (n : ℚ) ≤ 20 + 120 / 173 + 4 →
        (HeaterCheck.stateAt .default (HeaterCheck.new.run .default [⟨0, 20, 200⟩]) 1 200
          (fun k => if k < 18 then 21 else 22) (n + 1)).isVerifyHeaterFault = false := by
  constructor
  · refine ⟨by decide +kernel, by decide +kernel, fun k => ?_, fun j k _ => ?_⟩
    · split <;> decide +kernel
    · split <;> split <;> decide +kernel
  intro n bounded
  have few : n < 25 := by
    have cast : (n : ℚ) < (25 : ℕ) := bounded.trans_lt (by decide +kernel)
    exact_mod_cast cast
  have all : ∀ n < 25,
      (HeaterCheck.stateAt .default (HeaterCheck.new.run .default [⟨0, 20, 200⟩]) 1 200
        (fun k => if k < 18 then 21 else 22) (n + 1)).isVerifyHeaterFault = false := by
    decide +kernel
  exact all n few

end CentauriCarbon.Heaters
