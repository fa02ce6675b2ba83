import CentauriCarbon.Foundation.EventRun
import CentauriCarbon.Heaters.HeaterCheck

/-! # The interlock of `RESUME`

`PauseResume` listens to the faults of all heaters. It keeps one flag for each kind of fault, which
every signal of that kind overwrites, whoever sends it.
-/

namespace CentauriCarbon.Heaters

inductive FaultKind where
  | verifyHeater
  | adcTemp
  deriving DecidableEq

def FaultKind.other : FaultKind → FaultKind
  | .verifyHeater => .adcTemp
  | .adcTemp => .verifyHeater

structure HeaterSignal (Name : Type) where
  kind : FaultKind
  heater : Name
  isFault : Bool

structure AbnormalFlags where
  isCoverDrop : Bool
  isVerifyHeaterFault : Bool
  isAdcTempFault : Bool

namespace AbnormalFlags

def new : AbnormalFlags where
  isCoverDrop := false
  isVerifyHeaterFault := false
  isAdcTempFault := false

def get (flags : AbnormalFlags) : FaultKind → Bool
  | .verifyHeater => flags.isVerifyHeaterFault
  | .adcTemp => flags.isAdcTempFault

/-- The handlers of the signals. None of them looks at the name of the heater. -/
def handleSignal {Name : Type} (flags : AbnormalFlags) (signal : HeaterSignal Name) :
    AbnormalFlags :=
  match signal.kind with
  | .verifyHeater => { flags with isVerifyHeaterFault := signal.isFault }
  | .adcTemp => { flags with isAdcTempFault := signal.isFault }

def abnormalCheck (flags : AbnormalFlags) : Bool :=
  flags.isCoverDrop || flags.isAdcTempFault || flags.isVerifyHeaterFault

variable {Name : Type} (flags : AbnormalFlags) (signal : HeaterSignal Name)

theorem abnormalCheck_iff (kind : FaultKind) : flags.abnormalCheck ↔
      flags.isCoverDrop = true ∨ flags.get kind ∨ flags.get kind.other := by
  rw [abnormalCheck, Bool.or_eq_true, Bool.or_eq_true]
  cases kind with
  | verifyHeater =>
    tauto
  | adcTemp =>
    tauto

@[simp] theorem get_handleSignal :
    (flags.handleSignal signal).get signal.kind = signal.isFault := by
  rw [handleSignal]
  cases signal.kind <;> rfl

@[simp] theorem get_handleSignal_other :
    (flags.handleSignal signal).get signal.kind.other = flags.get signal.kind.other := by
  rw [handleSignal]
  cases signal.kind <;> rfl

@[simp] theorem isCoverDrop_handleSignal :
    (flags.handleSignal signal).isCoverDrop = flags.isCoverDrop := by
  rw [handleSignal]
  cases signal.kind <;> rfl

end AbnormalFlags

def Alternates : Bool → List Bool → Prop
  | _, [] => True
  | inFault, isFault :: signals => isFault = !inFault ∧ Alternates isFault signals

structure AdcSensor where
  name : String
  isAdcTempFault : Bool

/-- The part of `adc_callback` that reports values out of range; the sensor of the box reports
only their end. -/
def AdcSensor.adcCallback (sensor : AdcSensor) (readValue : ℚ) :
    AdcSensor × Option (HeaterSignal String) :=
  if 995 / 1000 ≤ readValue ∨ readValue ≤ 1 / 10000 then
    if !sensor.isAdcTempFault then
      ({ sensor with isAdcTempFault := true },
        if sensor.name ≠ "ztemperature_sensor box" then some ⟨.adcTemp, sensor.name, true⟩
        else none)
    else (sensor, none)
  else if sensor.isAdcTempFault then
    ({ sensor with isAdcTempFault := false }, some ⟨.adcTemp, sensor.name, false⟩)
  else (sensor, none)

def AdcSensor.signals (sensor : AdcSensor) : List ℚ → List (HeaterSignal String)
  | [] => []
  | readValue :: readValues =>
    (sensor.adcCallback readValue).2.toList ++ (sensor.adcCallback readValue).1.signals readValues

theorem AdcSensor.alternates_signals (sensor : AdcSensor)
    (notBox : sensor.name ≠ "ztemperature_sensor box") (readValues : List ℚ) :
    Alternates sensor.isAdcTempFault ((sensor.signals readValues).map (·.isFault)) := by
  induction readValues generalizing sensor with
  | nil => trivial
  | cons readValue readValues induction =>
    rw [signals, List.map_append]
    rcases sensor with ⟨name, inFault⟩
    by_cases wrong : 995 / 1000 ≤ readValue ∨ readValue ≤ 1 / 10000
    · cases inFault with
      | false =>
        rw [adcCallback, if_pos wrong]
        rw [if_pos Bool.not_false, if_pos notBox]
        exact ⟨rfl, induction ⟨name, true⟩ notBox⟩
      | true =>
        rw [adcCallback, if_pos wrong]
        exact induction ⟨name, true⟩ notBox
    · cases inFault with
      | false =>
        rw [adcCallback, if_neg wrong]
        exact induction ⟨name, false⟩ notBox
      | true =>
        rw [adcCallback, if_neg wrong]
        exact ⟨rfl, induction ⟨name, false⟩ notBox⟩

theorem bed_signals_alternate : Alternates false
    ((AdcSensor.signals ⟨"heater_bed", false⟩ [1, 1 / 2]).map (·.isFault)) :=
  AdcSensor.alternates_signals ⟨"heater_bed", false⟩ (by decide) _

variable {Name : Type} [DecidableEq Name]

structure Interlock (Name : Type) where
  flags : AbnormalFlags
  raised : FaultKind × Name → Bool

namespace Interlock

def new : Interlock Name where
  flags := .new
  raised _ := false

def signal (interlock : Interlock Name) (signal : HeaterSignal Name) : Interlock Name where
  flags := interlock.flags.handleSignal signal
  raised := Function.update interlock.raised (signal.kind, signal.heater) signal.isFault

variable (interlock : Interlock Name)

def step (signal : HeaterSignal Name) : Option (Interlock Name) := some (interlock.signal signal)

def Tracks : Prop := (∃ fault, interlock.raised fault = true) → interlock.flags.abnormalCheck = true

/-- A heater that reports its end of a fault is the last one in fault, or something else keeps
`RESUME` refused: the cover, or the flag of the other kind. -/
def ClearsLast (signal : HeaterSignal Name) : Prop :=
  signal.isFault = true ∨ interlock.flags.isCoverDrop = true ∨
    interlock.flags.get signal.kind.other = true ∨
    ∀ fault, interlock.raised fault = true → fault = (signal.kind, signal.heater)

theorem clearsLast_iff (interlock : Interlock Name) (signal : HeaterSignal Name) :
    ClearsLast interlock signal ↔ (interlock.signal signal).Tracks := by
  have check := (interlock.flags.handleSignal signal).abnormalCheck_iff signal.kind
  rw [AbnormalFlags.isCoverDrop_handleSignal, AbnormalFlags.get_handleSignal,
    AbnormalFlags.get_handleSignal_other] at check
  have left : (∃ fault, (interlock.signal signal).raised fault) ↔
      signal.isFault ∨
        ∃ fault, fault ≠ (signal.kind, signal.heater) ∧ interlock.raised fault :=
    Function.exists_update_iff interlock.raised (fun _ value => value = true)
  rw [Tracks, left, ClearsLast]
  change _ ↔ (_ → (interlock.flags.handleSignal signal).abnormalCheck)
  rw [check]
  constructor
  · rintro (now | cover | flag | last) stillRaised
    · exact .inr (.inl now)
    · exact .inl cover
    · exact .inr (.inr flag)
    · rcases stillRaised with now | ⟨fault, different, raised⟩
      · exact .inr (.inl now)
      · exact absurd (last fault raised) different
  intro tracks
  by_cases last : ∀ fault, interlock.raised fault → fault = (signal.kind, signal.heater)
  · exact .inr (.inr (.inr last))
  rw [Classical.not_forall] at last
  rcases last with ⟨fault, other⟩
  rw [Classical.not_imp] at other
  rcases tracks (.inr ⟨fault, other.2, other.1⟩) with cover | now | flag
  · exact .inr (.inl cover)
  · exact .inl now
  · exact .inr (.inr (.inl flag))

end Interlock

/-- The interlock tracks every heater exactly in the runs in which only the last heater in fault
reports the end of its fault, unless something else keeps `RESUME` refused. -/
theorem interlock_tracks_iff (signals : List (HeaterSignal Name)) :
    RunMeets Interlock.step Interlock.ClearsLast .new signals ↔
      ∀ done final, done <+: signals →
        runEvents Interlock.step .new done = some final → final.Tracks :=
  runMeets_iff
    (fun interlock signal _ => by
      rw [Interlock.clearsLast_iff]
      simp [Interlock.step])
    (by
      rintro ⟨_, impossible⟩
      cases impossible)

/-- Two heaters report a fault, and the end of one of them unlocks `RESUME`. -/
theorem extruder_fault_forgotten :
    let signals : List (HeaterSignal String) :=
      [⟨.verifyHeater, "extruder", true⟩, ⟨.verifyHeater, "heater_bed", true⟩,
        ⟨.verifyHeater, "heater_bed", false⟩]
    (∀ kind heater, Alternates false
      ((signals.filter fun signal => signal.kind = kind ∧ signal.heater = heater).map
        (·.isFault))) ∧
    (runEvents Interlock.step .new signals).map (fun interlock =>
        (interlock.raised (.verifyHeater, "extruder"), interlock.flags.abnormalCheck)) =
      some (true, false) := by
  intro signals
  constructor
  · intro kind heater
    cases kind with
    | verifyHeater =>
      by_cases extruder : "extruder" = heater
      · subst extruder
        exact ⟨rfl, trivial⟩
      by_cases bed : "heater_bed" = heater
      · subst bed
        exact ⟨rfl, rfl, trivial⟩
      · simp [signals, extruder, bed, Alternates]
    | adcTemp => trivial
  · decide +kernel

end CentauriCarbon.Heaters
