import CentauriCarbon.Canvas.CanvasProtocol
import Mathlib.Algebra.Order.Ring.Rat
import Mathlib.Data.List.FinRange
import Mathlib.Tactic.IntervalCases

/-! # What the filament changer reports

The device reports the flags and two counters of each channel; `PARSE_ALL_STATUS` reads them.
-/

namespace CentauriCarbon.Canvas

open List

structure FeederReport where
  flags : UInt8
  position : UInt32
  distance : UInt32

def counterBytes (count : UInt32) : List UInt8 :=
  [(count >>> 24).toUInt8, (count >>> 16).toUInt8, (count >>> 8).toUInt8, count.toUInt8]

def FeederReport.bytes (report : FeederReport) : List UInt8 :=
  report.flags :: (counterBytes report.position ++ counterBytes report.distance)

def packAllStatus (id deviceStatus : UInt8) (reports : Fin 4 → FeederReport) : List UInt8 :=
  id :: 0x7F :: deviceStatus :: (finRange 4).flatMap fun channel => (reports channel).bytes

/-- The millimetres of a count. -/
def scale (poleNumber : Int) : Rat := 9.4 * 3.14159265358979323846 / (2 * poleNumber)

/-- The data of a channel says what the device has reported. -/
structure FeederStatus.Faithful (gearPoleNumber motorPoleNumber : Int) (report : FeederReport)
    (feeder : FeederStatus) : Prop where
  flags : feeder.feedersStatus = report.flags ∧
    [feeder.filaAbnormal, feeder.dragging, feeder.dragCompensateError, feeder.motorSlip,
      feeder.motorCrtlErr, feeder.filaIn, feeder.motorFault].map UInt8.toNat =
        [7, 6, 4, 3, 2, 1, 0].map fun bit => report.flags.toNat / 2 ^ bit % 2
  position : feeder.chPosition.toInt32.toInt * scale gearPoleNumber =
    report.position.toInt32.toInt * scale gearPoleNumber
  distance : feeder.chFilaMoveDist.toInt32.toInt * scale motorPoleNumber =
    report.distance.toInt32.toInt * scale motorPoleNumber

theorem joined_eq (count : UInt32) :
    (count >>> 24).toUInt8.toUInt32 <<< 24 ||| (count >>> 16).toUInt8.toUInt32 <<< 16 |||
      (count >>> 8).toUInt8.toUInt32 <<< 8 ||| count.toUInt8.toUInt32 <<< 0 = count := by
  apply UInt32.eq_of_toBitVec_eq
  ext bit inside
  interval_cases bit <;> simp [-UInt32.toUInt32_toUInt8]

theorem joined_eq_iff (count : UInt32) :
    (count >>> 24).toUInt8.toUInt32 <<< 24 ||| (count >>> 16).toUInt8.toUInt32 <<< 16 |||
      (count >>> 8).toUInt8.toUInt32 <<< 7 ||| count.toUInt8.toUInt32 <<< 0 = count ↔
      (count >>> 8).toUInt8 = 0 := by
  constructor
  · intro same
    -- Each bit of the third byte is the next higher one, and the highest is clear.
    have bits := fun bit : Fin 8 => congrArg (fun word => word.toBitVec.getLsbD (8 + bit)) same
    simp [-UInt32.toUInt32_toUInt8, Fin.forall_fin_succ] at bits
    apply UInt8.eq_of_toBitVec_eq
    ext bit inside
    interval_cases bit <;> simp <;> grind
  · intro zero
    have same := joined_eq count
    rw [zero] at same ⊢
    exact same

theorem readFeeder_bytes (report : FeederReport) (gearPoleNumber : Int)
    (poles_ne : motorPoleNumber ≠ 0) :
    ∃ feeder, CanvasStatus.readFeeder report.bytes 0 = some feeder ∧
      (feeder.Faithful gearPoleNumber motorPoleNumber report ↔
        (report.distance >>> 8).toUInt8 = 0) := by
  refine ⟨_, rfl, ?_⟩
  rw [← joined_eq_iff]
  constructor
  · intro faithful
    have scale_ne : scale motorPoleNumber ≠ 0 := by norm_num [scale, poles_ne]
    have same := Int.cast_injective (mul_right_cancel₀ scale_ne faithful.distance)
    exact UInt32.eq_of_toBitVec_eq (BitVec.eq_of_toInt_eq same)
  · intro same
    refine ⟨⟨rfl, ?_⟩, ?_, ?_⟩
    · simp [Nat.shiftRight_eq_div_pow]
    · rw [joined_eq]
    · rw [same]

/-- The status of the device and the reports of its channels are read as they were sent. -/
def ReadsFaithfully (gearPoleNumber motorPoleNumber : Int) (status : CanvasStatus)
    (id deviceStatus : UInt8) (reports : Fin 4 → FeederReport) : Prop :=
  ∃ after, status.parseAllStatus (packAllStatus id deviceStatus reports) = some after ∧
    after.status = deviceStatus ∧
    Forall₂ (FeederStatus.Faithful gearPoleNumber motorPoleNumber) ((finRange 4).map reports)
      after.feeders

/-- A distance is read as it was sent exactly if its third byte, which is shifted by seven bits, is
zero. -/
theorem reads_faithfully_iff {motorPoleNumber : Int} (poles_ne : motorPoleNumber ≠ 0)
    (gearPoleNumber : Int) (status : CanvasStatus) (id deviceStatus : UInt8)
    (reports : Fin 4 → FeederReport) :
    ReadsFaithfully gearPoleNumber motorPoleNumber status id deviceStatus reports ↔
      ∀ channel, ((reports channel).distance >>> 8).toUInt8 = 0 := by
  choose feeders read_eq faithful_iff using fun channel : Fin 4 =>
    readFeeder_bytes (reports channel) gearPoleNumber poles_ne
  have read (channel : Fin 4) : CanvasStatus.readFeeder (packAllStatus id deviceStatus reports)
      (3 + channel * feederDataSize) = some (feeders channel) := by
    rw [← read_eq channel]
    match channel with
    | 0 | 1 | 2 | 3 => rfl
  have each : (range channelNumber).mapM (fun channel => CanvasStatus.readFeeder
      (packAllStatus id deviceStatus reports) (3 + channel * feederDataSize)) =
        some ((finRange 4).map feeders) := by
    change ([((0 : Fin 4) : Nat), (1 : Fin 4), (2 : Fin 4), (3 : Fin 4)]).mapM _ = _
    simp only [mapM_cons, read]
    rfl
  rw [ReadsFaithfully, CanvasStatus.parseAllStatus, each]
  constructor
  · rintro ⟨_, ⟨⟩, _, faithful⟩
    simpa [forall₂_map_left_iff, forall₂_map_right_iff, forall₂_same, faithful_iff] using faithful
  · intro zero
    refine ⟨_, rfl, rfl, ?_⟩
    simpa [forall₂_map_left_iff, forall₂_map_right_iff, forall₂_same, faithful_iff] using zero

theorem reads_counters_faithfully : ReadsFaithfully 5 2 .new 1 4 fun channel =>
    ⟨0x82 + .ofNat channel, 0xFFFE1234, 0x12340050 + .ofNat channel⟩ :=
  (reads_faithfully_iff (by decide) 5 .new 1 4 _).mpr (by decide)

theorem third_byte_misread : ¬ReadsFaithfully 5 2 .new 0 0 fun _ => ⟨0, 0, 0x100⟩ := by
  rintro ⟨_, ⟨⟩, _, faithful⟩
  have distance := (forall₂_cons.mp faithful).1.distance
  norm_num [scale] at distance
  cases distance

end CentauriCarbon.Canvas
