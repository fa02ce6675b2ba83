import CentauriCarbon.Canvas.Feeding
import Mathlib.Data.Fin.VecNotation
import Mathlib.Data.List.FinRange
import Mathlib.Tactic.IntervalCases

/-! # The filament in the head

The host looks for the feeder whose filament is in the head, and unplugs it.
-/

namespace CentauriCarbon.Canvas

/-- What `extruder_channel_check` reads: the sensor of the head at the start, after each feeder
was drawn back and at the end, and the positions before, between and behind the two scripts. -/
structure ChannelCheck where
  feedChannelCurrent : Int
  exFilaStatus : Bool
  statusDrawn : Fin 4 → Bool
  statusAtEnd : Bool
  loaded : Fin 4 → Bool
  before : Fin 4 → Rat
  between : Fin 4 → Rat
  behind : Fin 4 → Rat
  checkDistance1 : Rat × Rat
  checkDistance2 : Rat × Rat
  motorSpeed : Int
  motorAccel : Int

structure CheckResult where
  feedChannelCurrent : Int
  commands : List FeederCommand
  mmuError : Option String

namespace ChannelCheck

def inWindow (travel : Rat) (window : Rat × Rat) : Bool :=
  |travel| ≥ window.1 && |travel| ≤ window.2

variable (check : ChannelCheck)

def count : List (Fin 4) :=
  (List.finRange 4).filter fun channel =>
    inWindow (check.between channel - check.before channel) check.checkDistance1

def movedAgain (channel : Fin 4) : Bool :=
  inWindow (check.behind channel - check.between channel) check.checkDistance2

/-- The indices into `count`, not the channels, are kept. -/
def secondCount : List Nat :=
  (check.count.zipIdx.filter fun candidate => check.movedAgain candidate.1).map Prod.snd

def secondChannel : List Nat → Int
  | [index] => index
  | _ => -1

def channelOf (indices : List Nat) : List (Fin 4) → Int
  | [] => -1
  | [channel] => channel.val
  | _ => secondChannel indices

def channelFound : Int := channelOf check.secondCount check.count

def drawBack : List (Fin 4) → List FeederCommand
  | [] => []
  | channel :: channels =>
    if check.loaded channel then
      .filamentControl channel.val (-30) check.motorSpeed check.motorAccel ::
        if !check.statusDrawn channel then
          [.filamentStop channel.val,
            .filamentControl channel.val (-120) check.motorSpeed check.motorAccel]
        else drawBack channels
    else drawBack channels

def extruderChannelCheck : CheckResult :=
  if check.feedChannelCurrent ≠ -1 || !check.exFilaStatus then
    ⟨if !check.exFilaStatus then -1 else check.feedChannelCurrent, [], none⟩
  else
    ⟨check.channelFound, if check.count = [] then check.drawBack (List.finRange 4) else [],
      if check.channelFound = -1 && check.statusAtEnd then some "extrude channel check failed."
      else none⟩

structure NamesMoved : Prop where
  first : ∀ channel, check.count = [channel] →
    check.extruderChannelCheck.feedChannelCurrent = channel.val
  second : 2 ≤ check.count.length → ∀ channel, check.count.filter check.movedAgain = [channel] →
    check.extruderChannelCheck.feedChannelCurrent = channel.val
  unknown : 2 ≤ check.count.length → (check.count.filter check.movedAgain).length ≠ 1 →
    check.extruderChannelCheck.feedChannelCurrent = -1 ∧
      check.extruderChannelCheck.mmuError.isSome

variable {check}

theorem channelOf_of_two_le (several : 2 ≤ channels.length) :
    channelOf indices channels = secondChannel indices := by
  rcases channels with _ | ⟨first, _ | ⟨second, rest⟩⟩
  · simp at several
  · simp at several
  · rfl

theorem secondChannel_of_length_ne_one (several : indices.length ≠ 1) :
    secondChannel indices = -1 := by
  rcases indices with _ | ⟨first, _ | ⟨second, rest⟩⟩
  · rfl
  · exact absurd rfl several
  · rfl

theorem map_fst_filter_zipIdx (select : α → Bool) (values : List α) :
    (values.zipIdx.filter fun pair => select pair.1).map Prod.fst = values.filter select := by
  conv_rhs => rw [← List.zipIdx_map_fst 0 values, List.filter_map]
  rfl

theorem secondCount_length :
    check.secondCount.length = (check.count.filter check.movedAgain).length := by
  rw [← map_fst_filter_zipIdx check.movedAgain check.count, secondCount, List.length_map,
    List.length_map]

theorem secondCount_eq (moved : check.count.filter check.movedAgain = [channel]) :
    ∃ index, check.count[index]? = some channel ∧ check.secondCount = [index] := by
  rw [← map_fst_filter_zipIdx, List.map_eq_singleton_iff] at moved
  rcases moved with ⟨⟨_, index⟩, pairs, rfl⟩
  have member := List.mem_of_mem_filter (pairs ▸ List.mem_singleton_self _)
  exact ⟨index, List.mk_mem_zipIdx_iff_getElem?.mp member, by rw [secondCount, pairs]; rfl⟩

theorem channel_named_iff (unknown : check.feedChannelCurrent = -1)
    (triggered : check.exFilaStatus) (triggeredAtEnd : check.statusAtEnd) :
    check.NamesMoved ↔ (2 ≤ check.count.length → ∀ channel,
      check.count.filter check.movedAgain = [channel] →
        check.count[channel.val]? = some channel) := by
  have found : check.extruderChannelCheck.feedChannelCurrent = check.channelFound := by
    simp [extruderChannelCheck, unknown, triggered]
  have secondFound : 2 ≤ check.count.length →
      check.channelFound = secondChannel check.secondCount := channelOf_of_two_le
  constructor
  · intro names several channel moved
    rcases secondCount_eq moved with ⟨index, at_index, named⟩
    have same := names.second several channel moved
    rw [found, secondFound several, named] at same
    rwa [← Int.ofNat.inj same]
  · intro placed
    refine ⟨fun channel only => ?_, fun several channel moved => ?_, fun several moved => ?_⟩
    · rw [found, channelFound, only, channelOf]
    · rcases secondCount_eq moved with ⟨index, at_index, named⟩
      have nodup : check.count.Nodup := (List.nodup_finRange 4).filter _
      have inRange := (List.getElem?_eq_some_iff.mp at_index).1
      have same := (List.getElem?_inj inRange nodup).mp
        (at_index.trans (placed several channel moved).symm)
      rw [found, secondFound several, named, secondChannel, same]
    · rw [← secondCount_length] at moved
      have named := (secondFound several).trans (secondChannel_of_length_ne_one moved)
      exact ⟨found.trans named,
        by simp [extruderChannelCheck, unknown, triggered, named, triggeredAtEnd]⟩

def twoMoved (between behind : Fin 4 → Rat) : ChannelCheck :=
  ⟨-1, true, fun _ => true, true, fun _ => true, 0, between, behind, (4, 6), (4, 6), 50, 100⟩

theorem second_of_first_two_named : (twoMoved ![5, 5, 0, 0] ![5, 10, 0, 0]).NamesMoved :=
  (channel_named_iff rfl rfl rfl).mpr (by decide +kernel)

theorem index_taken_for_channel : ¬(twoMoved ![0, 5, 0, 5] ![0, 5, 0, 10]).NamesMoved :=
  fun names => absurd (names.second (by decide +kernel) 3 (by decide +kernel)) (by decide +kernel)

end ChannelCheck

/-- What `CMD_canvas_plug_out_filament` reads: the sensor at the start, behind `clean_waste` and
behind the script that meshes the gear, and the error of `extruder_retract` for a channel. -/
structure PlugOut where
  feedChannelCurrent : Int
  exFilaStatus : Bool
  statusCleaned : Bool
  statusMeshed : Bool
  loaded : Fin 4 → Bool
  extruderRetract : UInt8 → Option String

structure PlugOutResult where
  meshed : List UInt8
  retracted : List UInt8
  mmuError : Option String

namespace PlugOut

variable (plugOut : PlugOut)

def retractLoaded : List (Fin 4) → List UInt8 × Option String
  | [] => ([], none)
  | i :: rest =>
    let channel := UInt8.ofNat i
    let tried := if plugOut.loaded i then [channel] else []
    if plugOut.loaded i && (plugOut.extruderRetract channel).isNone then (tried, none)
    else if i = 3 then
      (tried, "Extruder filament plug out failed: unkonw channel, filament broken")
    else
      let (retracted, mmuError) := retractLoaded rest
      (tried ++ retracted, mmuError)

def canvasPlugOutFilament : PlugOutResult :=
  if !plugOut.exFilaStatus then ⟨[], [], none⟩
  else
    let channel := UInt8.ofInt plugOut.feedChannelCurrent
    if !plugOut.statusCleaned then ⟨[], [], none⟩
    else if (channel.toNat : Int) ≠ -1 then
      ⟨[channel], [channel], plugOut.extruderRetract channel⟩
    else if plugOut.statusMeshed then
      let (retracted, mmuError) := plugOut.retractLoaded (List.finRange 4)
      ⟨[channel], retracted, mmuError⟩
    else ⟨[channel], [], none⟩

def loadedChannels : List UInt8 := ((List.finRange 4).filter plugOut.loaded).map (UInt8.ofNat ·)

/-- While the sensor stays triggered, an unknown channel is looked for. -/
structure AddressesFeeders : Prop where
  exist : ∀ channel ∈ plugOut.canvasPlugOutFilament.meshed ++
    plugOut.canvasPlugOutFilament.retracted, channel < 4
  searched : plugOut.feedChannelCurrent = -1 → plugOut.statusCleaned → plugOut.statusMeshed →
    plugOut.canvasPlugOutFilament.retracted =
        plugOut.loadedChannels.takeWhile (plugOut.extruderRetract · |>.isSome) ++
          (plugOut.loadedChannels.find? (plugOut.extruderRetract · |>.isNone)).toList ∧
      (plugOut.canvasPlugOutFilament.mmuError.isSome ↔
        ∀ channel ∈ plugOut.loadedChannels, (plugOut.extruderRetract channel).isSome)

variable {plugOut}

/-- The unknown channel has become 255 when it is tested. -/
theorem feeders_addressed_iff (lower : -1 ≤ plugOut.feedChannelCurrent)
    (upper : plugOut.feedChannelCurrent ≤ 3) (triggered : plugOut.exFilaStatus) :
    plugOut.AddressesFeeders ↔ (plugOut.statusCleaned → plugOut.feedChannelCurrent ≠ -1) := by
  constructor
  · intro addresses cleaned unknown
    have marker : UInt8.ofInt (-1) = 255 := rfl
    exact absurd (addresses.exist 255
      (by simp [canvasPlugOutFilament, triggered, cleaned, unknown, marker])) (by decide)
  · intro known
    refine ⟨?_, fun unknown cleaned => absurd unknown (known cleaned)⟩
    cases cleaned : plugOut.statusCleaned with
    | false => simp [canvasPlugOutFilament, cleaned]
    | true =>
      have exists_channel : UInt8.ofInt plugOut.feedChannelCurrent < 4 := by
        have ne := known cleaned
        generalize plugOut.feedChannelCurrent = channel at *
        interval_cases channel <;> first | exact absurd rfl ne | decide
      simpa [canvasPlugOutFilament, triggered, cleaned] using exists_channel

theorem second_channel_addressed :
    (⟨1, true, true, true, fun _ => true, fun _ => none⟩ : PlugOut).AddressesFeeders :=
  (feeders_addressed_iff (by decide) (by decide) rfl).mpr fun _ => by decide

theorem channel_255_addressed :
    ¬(⟨-1, true, true, true, fun _ => true, fun _ => none⟩ : PlugOut).AddressesFeeders :=
  fun addresses => absurd (addresses.exist 255 (by decide)) (by decide)

end PlugOut

end CentauriCarbon.Canvas
