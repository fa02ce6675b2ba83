import CentauriCarbon.Foundation.Memory
import CentauriCarbon.Protocol.Message

/-! # Packages of the bootloader

`bootloader_com.c`: a package is a magic pair, a command, a length, a payload and its checksum.
The receiver walks through these fields byte by byte, only the payload is copied in pieces.
-/

namespace CentauriCarbon.Bootloader

open List Protocol

def comMinPackageSize : Nat := 7

def comMaxPayload : Nat := 4096

def bootloaderCrc16Ccitt (buf : List UInt8) : UInt16 := buf.foldl crcUpdate 0xffff

/-- `bootloader_package_data`, for a buffer that is large enough. -/
def bootloaderPackageData (cmd : UInt8) (payload : List UInt8) : List UInt8 :=
  let len := UInt32.ofNat payload.length
  let crc16 := bootloaderCrc16Ccitt payload
  [0xa5, 0x5a, cmd, (len >>> 8).toUInt8, (len &&& 0xff).toUInt8] ++ payload ++
    [(crc16 >>> 8).toUInt8, (crc16 &&& 0xff).toUInt8]

inductive ParseSta where
  | a5
  | magic5A
  | cmd
  | len1
  | len2
  | data
  | crc1
  | crc2
  deriving DecidableEq

/-- The state of the receiver. It does not keep `parsed`, the number of bytes that it has been
through. -/
structure ComParser where
  sta : ParseSta
  cmd : UInt8
  count : UInt16
  len : UInt16
  crc : UInt16
  payload : Nat → UInt8
  parsed : Nat

structure ComCall where
  cmd : UInt8
  payload : Nat → UInt8
  len : UInt16
  parsed : Nat

namespace ComParser

def initial : ComParser := ⟨.a5, 0, 0, 0, 0, fun _ => 0, 0⟩

/-- One round of the `switch` at `com_parse_buf[i]`: the new state, the bytes that are left and
the call that is due. -/
def parseTurn (parser : ComParser) (byte : UInt8) (rest : List UInt8) :
    ComParser × List UInt8 × Option ComCall :=
  let next := { parser with parsed := parser.parsed + 1 }
  match parser.sta with
  | .a5 => ({ next with sta := if byte = 0xa5 then .magic5A else .a5 }, rest, none)
  | .magic5A => ({ next with sta := if byte = 0x5a then .cmd else .a5 }, rest, none)
  | .cmd => ({ next with cmd := byte, sta := .len1 }, rest, none)
  | .len1 => ({ next with len := byte.toUInt16, sta := .len2 }, rest, none)
  | .len2 =>
    let len := (parser.len <<< 8) ||| byte.toUInt16
    if len.toNat ≤ comMaxPayload then
      ({ next with len, count := 0, sta := .data }, rest, none)
    else ({ next with len, sta := .a5 }, rest, none)
  | .data =>
    let l := min (byte :: rest).length (parser.len.toNat - parser.count.toNat)
    let count := parser.count + UInt16.ofNat l
    ({ parser with
        payload := writeAt parser.payload parser.count.toNat ((byte :: rest).take l)
        count
        sta := if count = parser.len then .crc1 else .data
        parsed := parser.parsed + l }, (byte :: rest).drop l, none)
  | .crc1 => ({ next with crc := byte.toUInt16, sta := .crc2 }, rest, none)
  | .crc2 =>
    let crc := (parser.crc <<< 8) ||| byte.toUInt16
    ({ next with crc, sta := .a5 }, rest,
      if bootloaderCrc16Ccitt (readAt parser.payload 0 parser.len.toNat) = crc then
        some ⟨parser.cmd, parser.payload, parser.len, parser.parsed + 1⟩
      else none)

end ComParser

abbrev ComHandle (Device : Type) : Type := Device → ComCall → Device × (Nat → UInt8)

namespace ComParser

variable {Device : Type} (handle : ComHandle Device)

variable (parser : ComParser)

def afterTurn (device : Device) : Option ComCall → ComParser × Device
  | none => (parser, device)
  | some call =>
    ({ parser with payload := (handle device call).2 }, (handle device call).1)

def parse : Nat → ComParser → Device → List UInt8 → ComParser × Device
  | 0, parser, device, _ => (parser, device)
  | _ + 1, parser, device, [] => (parser, device)
  | rounds + 1, parser, device, byte :: rest =>
    let turn := parser.parseTurn byte rest
    let after := afterTurn handle turn.1 device turn.2.2
    parse rounds after.1 after.2 turn.2.1

/-! ## Byte by byte -/

/-- A package without a payload has its first checksum byte where the payload would be. -/
def afterEmptyPayload : ComParser :=
  if parser.sta = .data ∧ parser.count = parser.len then { parser with sta := .crc1 } else parser

def feedByte (state : ComParser × Device) (byte : UInt8) : ComParser × Device :=
  let turn := state.1.afterEmptyPayload.parseTurn byte []
  afterTurn handle turn.1 state.2 turn.2.2

def feed (state : ComParser × Device) (bytes : List UInt8) : ComParser × Device :=
  bytes.foldl (feedByte handle) state

def Consistent : Prop :=
  parser.sta = .data → parser.count.toNat ≤ parser.len.toNat ∧ parser.len.toNat ≤ comMaxPayload

@[simp] theorem feed_nil (state : ComParser × Device) : feed handle state [] = state := rfl

@[simp] theorem feed_cons (state : ComParser × Device) (byte : UInt8) (bytes : List UInt8) :
    feed handle state (byte :: bytes) = feed handle (feedByte handle state byte) bytes := rfl

theorem feed_append (state : ComParser × Device) (first second : List UInt8) :
    feed handle state (first ++ second) = feed handle (feed handle state first) second :=
  foldl_append

variable {parser : ComParser} {bytes : List UInt8}

theorem afterEmptyPayload_of_ne (notData : parser.sta ≠ .data) :
    parser.afterEmptyPayload = parser := by
  rw [afterEmptyPayload, if_neg fun empty => notData empty.1]

theorem parseTurn_of_ne (notData : parser.sta ≠ .data) (byte : UInt8) (rest : List UInt8) :
    parser.parseTurn byte rest =
      ((parser.parseTurn byte []).1, rest, (parser.parseTurn byte []).2.2) := by
  rcases parser with ⟨sta, cmd, count, len, crc, payload, parsed⟩
  cases sta with
  | data => exact absurd rfl notData
  | len2 =>
    simp only [parseTurn]
    split <;> rfl
  | a5 | magic5A | cmd | len1 | crc1 | crc2 => rfl

theorem toNat_count_add (fits : parser.count.toNat + l ≤ parser.len.toNat) :
    (parser.count + UInt16.ofNat l).toNat = parser.count.toNat + l := by
  have bound := parser.len.toNat_lt
  rw [UInt16.toNat_add, UInt16.toNat_ofNat', Nat.add_mod_mod]
  exact Nat.mod_eq_of_lt (by omega)

def copied (bytes : List UInt8) : ComParser :=
  { parser with
    payload := writeAt parser.payload parser.count.toNat bytes
    count := parser.count + UInt16.ofNat bytes.length
    sta := if parser.count + UInt16.ofNat bytes.length = parser.len then .crc1 else .data
    parsed := parser.parsed + bytes.length }

theorem copied_cons (fits : parser.count.toNat + 1 ≤ parser.len.toNat) (bytes : List UInt8) :
    parser.copied (byte :: bytes) = (parser.copied [byte]).copied bytes := by
  have position : (parser.count + UInt16.ofNat [byte].length).toNat = parser.count.toNat + 1 :=
    toNat_count_add fits
  have count : parser.count + UInt16.ofNat (byte :: bytes).length =
      parser.count + UInt16.ofNat [byte].length + UInt16.ofNat bytes.length := by
    rw [UInt16.add_assoc, ← UInt16.ofNat_add, length_cons, length_singleton, Nat.add_comm]
  have parsed : parser.parsed + (byte :: bytes).length =
      parser.parsed + [byte].length + bytes.length := by
    rw [length_cons, length_singleton]
    omega
  simp only [copied, ComParser.mk.injEq]
  refine ⟨?_, trivial, count, trivial, trivial, ?_, parsed⟩
  · rw [count]
    rfl
  · rw [position, writeAt_cons]

theorem feedByte_data (isData : parser.sta = .data) (more : parser.count.toNat < parser.len.toNat)
    (device : Device) (byte : UInt8) :
    feedByte handle (parser, device) byte = (parser.copied [byte], device) := by
  have notAll : parser.count ≠ parser.len := by
    intro all
    rw [all] at more
    exact lt_irrefl _ more
  have one : min [byte].length (parser.len.toNat - parser.count.toNat) = 1 := by
    rw [length_singleton]
    omega
  simp only [feedByte, afterEmptyPayload, isData, notAll, and_false, if_false, parseTurn, one,
    afterTurn, copied]
  rfl

theorem feed_data (someBytes : bytes ≠ []) (isData : parser.sta = .data)
    (fits : parser.count.toNat + bytes.length ≤ parser.len.toNat) (device : Device) :
    feed handle (parser, device) bytes = (parser.copied bytes, device) := by
  induction bytes generalizing parser with
  | nil => exact absurd rfl someBytes
  | cons byte bytes induction =>
    rw [length_cons] at fits
    rw [feed_cons, feedByte_data handle isData (by omega)]
    by_cases last : bytes = []
    · rw [last, feed_nil]
    have positive : 0 < bytes.length := length_pos_iff.mpr last
    have count : (parser.copied [byte]).count.toNat = parser.count.toNat + 1 := by
      apply toNat_count_add
      rw [length_singleton]
      omega
    rw [copied_cons (by omega) bytes]
    apply induction last
    · apply if_neg
      intro all
      have same := congrArg UInt16.toNat all
      change (parser.copied [byte]).count.toNat = _ at same
      omega
    · rw [count]
      change _ ≤ parser.len.toNat
      omega

theorem parseTurn_data_all (isData : parser.sta = .data) (all : parser.count = parser.len)
    (byte : UInt8) (rest : List UInt8) :
    parser.parseTurn byte rest = ({ parser with sta := .crc1 }, byte :: rest, none) := by
  rcases parser with ⟨sta, cmd, count, len, crc, payload, parsed⟩
  dsimp only at isData all
  subst isData all
  simp [parseTurn]

theorem parseTurn_data (isData : parser.sta = .data) (byte : UInt8) (rest : List UInt8) :
    let l := min (byte :: rest).length (parser.len.toNat - parser.count.toNat)
    parser.parseTurn byte rest =
      (parser.copied ((byte :: rest).take l), (byte :: rest).drop l, none) := by
  intro l
  have length : ((byte :: rest).take l).length = l := by
    rw [length_take]
    exact Nat.min_eq_left (Nat.min_le_left _ _)
  simp only [parseTurn, isData, copied, length, l]

theorem consistent_parseTurn (consistent : parser.Consistent) (byte : UInt8) (rest : List UInt8) :
    (parser.parseTurn byte rest).1.Consistent := by
  rcases parser with ⟨sta, cmd, count, len, crc, payload, parsed⟩
  cases sta with
  | a5 | magic5A =>
    intro isData
    simp only [parseTurn] at isData
    split at isData <;> cases isData
  | cmd | len1 | crc1 | crc2 =>
    nofun
  | len2 =>
    simp only [parseTurn]
    split
    next small => exact fun _ => ⟨Nat.zero_le _, small⟩
    · nofun
  | data =>
    intro _
    rcases consistent rfl with ⟨count_le, len_le⟩
    refine ⟨?_, len_le⟩
    dsimp only at count_le
    have bound := len.toNat_lt
    simp only [parseTurn]
    rw [UInt16.toNat_add, UInt16.toNat_ofNat', Nat.add_mod_mod, Nat.mod_eq_of_lt]
    all_goals omega

theorem consistent_afterTurn (consistent : parser.Consistent) (device : Device)
    (call : Option ComCall) : (afterTurn handle parser device call).1.Consistent := by
  cases call with
  | none => exact consistent
  | some call => exact consistent

theorem consistent_afterEmptyPayload (consistent : parser.Consistent) :
    parser.afterEmptyPayload.Consistent := by
  unfold afterEmptyPayload
  split
  · nofun
  · exact consistent

theorem consistent_feedByte (consistent : state.1.Consistent) (byte : UInt8) :
    (feedByte handle state byte).1.Consistent :=
  consistent_afterTurn handle
    (consistent_parseTurn (consistent_afterEmptyPayload consistent) byte []) _ _

theorem consistent_feed (consistent : state.1.Consistent) :
    (feed handle state bytes).1.Consistent := by
  induction bytes generalizing state with
  | nil => exact consistent
  | cons byte bytes induction => exact induction (consistent_feedByte handle consistent byte)

theorem parse_eq_feed (consistent : parser.Consistent)
    (enough : 2 * bytes.length + (if parser.sta = .data then 1 else 0) ≤ rounds) :
    parse handle rounds parser device bytes = feed handle (parser, device) bytes := by
  induction rounds generalizing parser device bytes with
  | zero =>
    have none : bytes = [] := length_eq_zero_iff.mp (by omega)
    rw [none]
    rfl
  | succ rounds induction =>
    cases bytes with
    | nil => rfl
    | cons byte rest =>
      rw [length_cons] at enough
      by_cases isData : parser.sta = .data
      · rcases consistent isData with ⟨count_le, len_le⟩
        rw [if_pos isData] at enough
        by_cases all : parser.count = parser.len
        · have same : feedByte handle ({ parser with sta := .crc1 }, device) byte =
              feedByte handle (parser, device) byte := by
            simp [feedByte, afterEmptyPayload, isData, all]
          rw [parse, parseTurn_data_all isData all, afterTurn, induction]
          · rw [feed_cons, feed_cons, same]
          · nofun
          · rw [if_neg (by simp), length_cons]
            omega
        have more : parser.count.toNat < parser.len.toNat :=
          Nat.lt_of_le_of_ne count_le fun same => all (UInt16.toNat_inj.mp same)
        have follows := consistent_parseTurn consistent byte rest
        rw [parse]
        rw [parseTurn_data isData] at follows ⊢
        rw [afterTurn, induction follows]
        · rw [← feed_data handle _ isData _ device, ← feed_append, take_append_drop]
          · simp only [ne_eq, take_eq_nil_iff, cons_ne_nil, or_false]
            rw [length_cons]
            omega
          · rw [length_take]
            omega
        · rw [length_drop, length_cons]
          split <;> omega
      · have follows := consistent_afterTurn handle (consistent_parseTurn consistent byte rest)
          device (parser.parseTurn byte rest).2.2
        rw [parse, induction follows]
        · simp only [feed_cons, parseTurn_of_ne isData byte rest, feedByte,
            afterEmptyPayload_of_ne isData]
        · rw [parseTurn_of_ne isData]
          dsimp only
          split <;> omega

end ComParser

end CentauriCarbon.Bootloader
