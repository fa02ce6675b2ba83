import Mathlib.Data.Fin.Tuple.Reflection

/-! # The record file of the filament changer -/

namespace CentauriCarbon.Canvas

abbrev Members := List (String × String)

structure FilamentInfo where
  manufacturer : String
  brand : String
  code : String
  type : String
  detailedType : String
  color : String
  diameter : String
  weight : String
  date : String
  nozzleMinTemp : String
  nozzleMaxTemp : String
  deriving Inhabited

namespace FilamentInfo

def save (info : FilamentInfo) : Members :=
  [("manufacturer", info.manufacturer), ("brand", info.brand), ("code", info.code),
    ("type", info.type), ("detailed_type", info.detailedType), ("color", info.color),
    ("diameter", info.diameter), ("weight", info.weight), ("date", info.date),
    ("nozzle_min_temp", info.nozzleMinTemp), ("nozzle_max_temp", info.nozzleMaxTemp)]

/-- A member that is missing throws. -/
def read (members : Members) : Option FilamentInfo :=
  return ⟨← members.lookup "manufacturer", ← members.lookup "brand", ← members.lookup "code",
    ← members.lookup "type", ← members.lookup "detailed_type", ← members.lookup "color",
    ← members.lookup "diameter", ← members.lookup "weight", ← members.lookup "date",
    ← members.lookup "nozzle_min_temp", ← members.lookup "nozzle_max_temp"⟩

theorem read_save (info : FilamentInfo) : read info.save = some info := by
  simp [save, read, List.lookup_cons]

/-- What is not in the file stays as it is. -/
def readIfContained (info : FilamentInfo) : Option Members → Option FilamentInfo
  | none => some info
  | some members => read members

end FilamentInfo

structure ChannelColor where
  t : String
  color : String
  channel : String
  deriving Inhabited

namespace ChannelColor

def save (entry : ChannelColor) : Members :=
  [("T", entry.t), ("color", entry.color), ("channel", entry.channel)]

def read (members : Members) : Option ChannelColor :=
  return ⟨← members.lookup "T", ← members.lookup "color", ← members.lookup "channel"⟩

theorem mapM_read_map_save (entries : List ChannelColor) :
    (entries.map save).mapM read = some entries := by
  induction entries with
  | nil => rfl
  | cons entry entries induction => simp [induction, save, read, List.lookup_cons]

end ChannelColor

/-- The file; the keys of `channels` and `colorTable` end in a number. -/
structure RecordFile where
  autoPlugInEnable : Option Nat
  channels : Nat → Option Members
  externChannel : Option Members
  colorTableSize : Option Nat
  colorTable : Nat → Option Members

structure HostRecord where
  autoPlugInEnable : UInt8
  filamentInfo : Fin 4 → FilamentInfo
  externFilament : FilamentInfo
  channelColorTable : List ChannelColor

namespace HostRecord

variable (record before : HostRecord)

def saveRecordInfo : RecordFile where
  autoPlugInEnable := some record.autoPlugInEnable.toNat
  channels i := if inside : i < 4 then some (record.filamentInfo ⟨i, inside⟩).save else none
  externChannel := some record.externFilament.save
  colorTableSize := some record.channelColorTable.length
  colorTable i := record.channelColorTable[i]?.map (·.save)

def readRecordInfo (file : RecordFile) : Option HostRecord := do
  let filament i := (record.filamentInfo i).readIfContained (file.channels i)
  return {
    autoPlugInEnable := (file.autoPlugInEnable.map UInt8.ofNat).getD record.autoPlugInEnable
    filamentInfo := ![← filament 0, ← filament 1, ← filament 2, ← filament 3]
    externFilament := ← record.externFilament.readIfContained file.externChannel
    channelColorTable := ← if file.colorTableSize.isSome then
        ((List.range 4).filterMap file.colorTable).mapM ChannelColor.read
      else some [] }

theorem filterMap_range_getElem? (table : List Entry) (count : Nat) :
    (List.range count).filterMap (table[·]?) = table.take count := by
  induction count with
  | zero => rfl
  | succ count induction =>
    rw [List.range_succ, List.filterMap_append, induction, List.take_add_one]
    cases found : table[count]? <;> simp [found]

/-- Only the first four entries of the color table are read back. -/
theorem readRecordInfo_saveRecordInfo : before.readRecordInfo record.saveRecordInfo =
    some { record with channelColorTable := record.channelColorTable.take 4 } := by
  have filaments := FinVec.etaExpand_eq record.filamentInfo
  have table : ((List.range 4).filterMap record.saveRecordInfo.colorTable).mapM ChannelColor.read =
      some (record.channelColorTable.take 4) := by
    rw [saveRecordInfo, ← List.map_filterMap, filterMap_range_getElem?]
    exact ChannelColor.mapM_read_map_save _
  simp only [readRecordInfo, table]
  simp [saveRecordInfo, FilamentInfo.readIfContained, FilamentInfo.read_save]
  exact filaments

theorem record_restored_iff :
    before.readRecordInfo record.saveRecordInfo = some record ↔
      record.channelColorTable.length ≤ 4 := by
  rw [readRecordInfo_saveRecordInfo, Option.some_inj, ← List.take_eq_self_iff]
  exact ⟨congrArg channelColorTable, fun same => by rw [same]⟩

theorem fifth_color_lost :
    let record : HostRecord := ⟨0, fun _ => default, default, List.replicate 5 default⟩
    record.readRecordInfo record.saveRecordInfo ≠ some record := by
  intro record restored
  rw [readRecordInfo_saveRecordInfo] at restored
  exact absurd (congrArg (·.map (·.channelColorTable.length)) restored) (by decide)

end HostRecord

end CentauriCarbon.Canvas
