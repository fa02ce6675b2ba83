import CentauriCarbon.Heaters.ResumeInterlock

/-! # The end of a heater fault

A fault ends with `verify_heater:normal`. The signal is emitted near the target or with the heater
off, and also when the time of an approach is over, although the heater has then not gained what it
should.
-/

namespace CentauriCarbon.Heaters

namespace HeaterCheck

variable (config : CheckConfig) (check : HeaterCheck) (sample : Sample)

def ApproachFails : Prop :=
  check.approachingTarget = true ∧ sample.temp < check.goalTemp ∧
    check.goalSystime ≤ sample.eventtime

theorem signal_checkCold_eq_normal_iff :
    (check.checkCold config sample).signal = some .normal ↔
      check.isVerifyHeaterFault = true ∧ check.ApproachFails sample := by
  rw [ApproachFails, checkCold]
  cases approaching : check.approachingTarget with
  | false =>
    rw [if_pos Bool.not_false]
    split
    · simp
    split
    · split
      · simp [heaterFault]
      · simp
    · simp
  | true =>
    rw [if_neg (by decide)]
    by_cases reached : check.goalTemp ≤ sample.temp
    · rw [if_pos reached]
      exact iff_of_false (by simp) fun fails => absurd reached (not_le_of_gt fails.2.2.1)
    rw [if_neg reached]
    by_cases late : check.goalSystime ≤ sample.eventtime
    · rw [if_pos late]
      simp [clearFault, lt_of_not_ge reached, late]
    rw [if_neg late]
    refine iff_of_false ?_ fun fails => absurd fails.2.2.2 late
    split
    · simp
    · simp

theorem signal_checkEvent_eq_normal_iff :
    (check.checkEvent config sample).signal = some .normal ↔
      check.isVerifyHeaterFault = true ∧
        (sample.IsHealthy config ∨ check.ApproachFails sample) := by
  rw [checkEvent]
  by_cases healthy : sample.IsHealthy config
  · rw [if_pos healthy, checkHealthy]
    simp [clearFault, healthy]
  · rw [if_neg healthy, signal_checkCold_eq_normal_iff]
    change _ ∧ check.ApproachFails sample ↔ _
    simp [healthy]

def flagAfter (flag : Bool) : Option VerifySignal → Bool
  | none => flag
  | some .fault => true
  | some .normal => false

theorem isVerifyHeaterFault_checkEvent :
    (check.checkEvent config sample).check.isVerifyHeaterFault =
      flagAfter check.isVerifyHeaterFault (check.checkEvent config sample).signal := by
  rw [checkEvent]
  split
  · rw [checkHealthy]
    cases check.isVerifyHeaterFault with
    | false | true => simp [clearFault, flagAfter]
  rw [checkCold]
  split
  · split
    · rfl
    · split
      · split
        · rfl
        · rfl
      · rfl
  split
  · rfl
  split
  · cases check.isVerifyHeaterFault with
    | false | true => simp [clearFault, flagAfter]
  · split
    · rfl
    · rfl

end HeaterCheck

structure Checked where
  check : HeaterCheck
  flags : AbnormalFlags
  sample : Sample

def AbnormalFlags.listen (flags : AbnormalFlags) (name : String) (signal : Option VerifySignal) :
    AbnormalFlags :=
  match signal with
  | none => flags
  | some signal => flags.handleSignal ⟨.verifyHeater, name, signal == .fault⟩

def checks (config : CheckConfig) (name : String) (check : HeaterCheck) (flags : AbnormalFlags) :
    List Sample → List Checked
  | [] => []
  | sample :: samples =>
    ⟨check, flags, sample⟩ ::
      checks config name (check.checkEvent config sample).check
        (flags.listen name (check.checkEvent config sample).signal) samples

namespace Checked

def ClearedByHealthy (config : CheckConfig) (name : String) (checked : Checked) : Prop :=
  let signal := (checked.check.checkEvent config checked.sample).signal
  (signal = some .normal → checked.sample.IsHealthy config) ∧
    (checked.flags.isVerifyHeaterFault = true →
      (checked.flags.listen name signal).isVerifyHeaterFault = false →
      checked.sample.IsHealthy config)

def FailsInFault (config : CheckConfig) (checked : Checked) : Prop :=
  checked.check.isVerifyHeaterFault = true ∧ ¬checked.sample.IsHealthy config ∧
    checked.check.ApproachFails checked.sample

theorem listen_isVerifyHeaterFault (flags : AbnormalFlags) (name : String)
    (signal : Option VerifySignal) : (flags.listen name signal).isVerifyHeaterFault =
      HeaterCheck.flagAfter flags.isVerifyHeaterFault signal := by
  rcases signal with _ | _ | _
  · rfl
  · rfl
  · rfl

/-- `PauseResume` has the flag of the only heater it hears of, so what clears its flag is the
signal. -/
theorem clearedByHealthy_iff (config : CheckConfig) (name : String) (checked : Checked)
    (agree : checked.flags.isVerifyHeaterFault = checked.check.isVerifyHeaterFault) :
    checked.ClearedByHealthy config name ↔ ¬checked.FailsInFault config := by
  rcases checked with ⟨check, flags, sample⟩
  have normal := check.signal_checkEvent_eq_normal_iff config sample
  have cleared : flags.isVerifyHeaterFault →
      (flags.listen name (check.checkEvent config sample).signal).isVerifyHeaterFault = false →
      (check.checkEvent config sample).signal = some .normal := by
    intro fault after
    rw [listen_isVerifyHeaterFault, fault] at after
    rcases signal : (check.checkEvent config sample).signal with _ | _ | _
    · rw [signal] at after
      cases after
    · rw [signal] at after
      cases after
    · rfl
  constructor
  · rintro ⟨healthy, _⟩ ⟨fault, cold, fails⟩
    exact cold (healthy (normal.mpr ⟨fault, .inr fails⟩))
  intro heats
  have healthy : (check.checkEvent config sample).signal = some .normal →
      sample.IsHealthy config := by
    intro signal
    rcases normal.mp signal with ⟨fault, healthy | fails⟩
    · exact healthy
    · exact Classical.byContradiction fun cold => heats ⟨fault, cold, fails⟩
  exact ⟨healthy, fun fault after => healthy (cleared fault after)⟩

end Checked

theorem agree_of_mem_checks (agree : flags.isVerifyHeaterFault = check.isVerifyHeaterFault)
    (member : checked ∈ checks config name check flags samples) :
    checked.flags.isVerifyHeaterFault = checked.check.isVerifyHeaterFault := by
  induction samples generalizing check flags with
  | nil => cases member
  | cons sample samples induction =>
    rcases List.mem_cons.mp member with rfl | later
    · exact agree
    · refine induction ?_ later
      rw [Checked.listen_isVerifyHeaterFault, agree, HeaterCheck.isVerifyHeaterFault_checkEvent]

/-- A fault is only cleared by a healthy heater exactly in the runs in which no approach fails
while the heater is in fault. -/
theorem fault_cleared_by_healthy_iff (config : CheckConfig) (name : String)
    (samples : List Sample) :
    (∀ checked ∈ checks config name .new .new samples, checked.ClearedByHealthy config name) ↔
      ∀ checked ∈ checks config name .new .new samples, ¬checked.FailsInFault config :=
  forall₂_congr fun checked member =>
    checked.clearedByHealthy_iff config name (agree_of_mem_checks rfl member)

/-- An extruder that stays at 20 degrees is reported at second 21. It is given another target, and
after 20 more seconds at 20 degrees its fault is taken back. -/
theorem fault_cleared_while_cold :
    let samples : List Sample :=
      (List.range 22).map (fun second => ⟨second, 20, 200⟩) ++
        (List.range 21).map (fun second => ⟨second + 23, 20, 210⟩)
    (checks .default "extruder" .new .new samples).map
        (fun checked => (checked.check.checkEvent .default checked.sample).signal) =
      List.replicate 21 none ++ [some .fault] ++ List.replicate 20 none ++ [some .normal] ∧
    samples.getLast? = some ⟨43, 20, 210⟩ ∧ ¬(⟨43, 20, 210⟩ : Sample).IsHealthy .default := by
  decide +kernel

end CentauriCarbon.Heaters
