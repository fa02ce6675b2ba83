import Mathlib.Data.List.Induction
import CentauriCarbon.Bootloader.ComParser

/-! # Streams of packages

Packages with noise between them. Noise that ends in an odd number of magic bytes makes the
receiver miss the package behind it; otherwise every package is handled when its last byte is
parsed.
-/

namespace CentauriCarbon.Bootloader

open List Protocol ComParser

def trailingMagic (noise : List UInt8) : Nat := (noise.reverse.takeWhile (· = 0xa5)).length

variable (noise : List UInt8)

theorem trailingMagic_concat (byte : UInt8) :
    trailingMagic (noise ++ [byte]) = if byte = 0xa5 then trailingMagic noise + 1 else 0 := by
  unfold trailingMagic
  split <;> simp_all

def afterNoise (noise : List UInt8) : ParseSta :=
  if trailingMagic noise % 2 = 1 then .magic5A else .a5

theorem getLast?_of_afterNoise {noise : List UInt8} (half : afterNoise noise = .magic5A) :
    ∃ before, noise = before ++ [0xa5] := by
  rcases eq_nil_or_concat noise with rfl | ⟨before, byte, rfl⟩
  · cases half
  rw [concat_eq_append, afterNoise, trailingMagic_concat] at half
  split at half
  next isMagic => exact ⟨before, by rw [concat_eq_append, isMagic]⟩
  · cases half

theorem afterNoise_concat (byte : UInt8) : afterNoise (noise ++ [byte]) =
      if byte = 0xa5 ∧ afterNoise noise = .a5 then .magic5A else .a5 := by
  unfold afterNoise
  rw [trailingMagic_concat]
  by_cases isMagic : byte = 0xa5
  · rcases Nat.mod_two_eq_zero_or_one (trailingMagic noise) with even | odd
    · have next : (trailingMagic noise + 1) % 2 = 1 := by omega
      simp [isMagic, even, next]
    · have next : (trailingMagic noise + 1) % 2 = 0 := by omega
      simp [isMagic, odd, next]
  · simp [isMagic]

theorem afterNoise_cases : afterNoise noise = .magic5A ∨ afterNoise noise = .a5 := by
  unfold afterNoise
  split
  · exact .inl rfl
  · exact .inr rfl

variable {Device : Type} (handle : ComHandle Device) {parser : ComParser} {cmd : UInt8}
  {payload : List UInt8}

theorem feedByte_magic5A (is5A : parser.sta = .magic5A) (device : Device) (byte : UInt8) :
    feedByte handle (parser, device) byte =
      ({ parser with
          sta := if byte = 0x5a then .cmd else .a5
          parsed := parser.parsed + 1 }, device) := by
  rcases parser with ⟨sta, cmd, count, len, crc, payload, parsed⟩
  subst is5A
  rfl

/-- Noise without the magic pair only moves the receiver between its first two states. -/
theorem feed_noise {noise : List UInt8} (noPair : ¬[0xa5, 0x5a] <:+: noise)
    (isA5 : parser.sta = .a5) (device : Device) : feed handle (parser, device) noise =
      ({ parser with sta := afterNoise noise, parsed := parser.parsed + noise.length },
        device) := by
  induction noise using reverseRecOn with
  | nil =>
    rcases parser with ⟨sta, cmd, count, len, crc, payload, parsed⟩
    subst isA5
    rfl
  | append_singleton noise byte induction =>
    have before := induction fun pair => noPair (pair.trans (infix_append' [] noise [byte]))
    rw [feed_append, before, feed_cons, feed_nil, length_append, ← add_assoc, afterNoise_concat]
    rcases afterNoise_cases noise with half | none
    · have notPair : byte ≠ 0x5a := by
        rintro rfl
        rcases getLast?_of_afterNoise half with ⟨start, rfl⟩
        apply noPair
        exact ⟨start, [], by simp⟩
      rw [feedByte_magic5A handle half, if_neg notPair, half, if_neg]
      · rfl
      · rintro ⟨-, isA5⟩
        cases isA5
    · rw [none]
      simp only [and_true]
      rfl

/-! ## A package -/

theorem toUInt8_shiftRight {length : Nat} (small : length < 2 ^ 16) :
    (UInt32.ofNat length >>> 8).toUInt8 = (UInt16.ofNat length >>> 8).toUInt8 := by
  apply UInt8.toNat_inj.mp
  have wide := UInt32.toNat_ofNat_of_lt' (Nat.lt_trans small (by decide))
  simp [wide, UInt16.toNat_ofNat_of_lt' small]

theorem and_low_byte (value : Nat) : value % 256 &&& 255 = value % 256 := by
  have low := Nat.and_two_pow_sub_one_eq_mod (value % 256) 8
  simpa using low

theorem toUInt8_and (length : Nat) :
    (UInt32.ofNat length &&& 0xff).toUInt8 = (UInt16.ofNat length).toUInt8 := by
  apply UInt8.toNat_inj.mp
  simp [and_low_byte]

theorem crc_and (crc : UInt16) : (crc &&& 0xff).toUInt8 = crc.toUInt8 := by
  apply UInt8.toNat_inj.mp
  simp [and_low_byte]

def headed (parser : ComParser) (cmd : UInt8) (length : Nat) : ComParser :=
  { parser with
    sta := .data
    cmd
    count := 0
    len := UInt16.ofNat length
    parsed := parser.parsed + 5 }

def packageHeader (cmd : UInt8) (length : Nat) : List UInt8 :=
  [0xa5, 0x5a, cmd, (UInt32.ofNat length >>> 8).toUInt8, (UInt32.ofNat length &&& 0xff).toUInt8]

def packageTrailer (payload : List UInt8) : List UInt8 :=
  [(bootloaderCrc16Ccitt payload >>> 8).toUInt8, (bootloaderCrc16Ccitt payload &&& 0xff).toUInt8]

theorem bootloaderPackageData_eq (cmd : UInt8) (payload : List UInt8) :
    bootloaderPackageData cmd payload =
      packageHeader cmd payload.length ++ (payload ++ packageTrailer payload) := by
  rfl

theorem length_bootloaderPackageData (cmd : UInt8) (payload : List UInt8) :
    (bootloaderPackageData cmd payload).length = payload.length + comMinPackageSize := by
  rw [bootloaderPackageData_eq]
  simp [packageHeader, packageTrailer, comMinPackageSize]

theorem feed_header (isA5 : parser.sta = .a5) {length : Nat} (small : length ≤ comMaxPayload)
    (device : Device) : feed handle (parser, device) (packageHeader cmd length) =
      (headed parser cmd length, device) := by
  unfold comMaxPayload at small
  have number : (UInt32.ofNat length >>> 8).toUInt8.toUInt16 <<< 8 |||
      (UInt32.ofNat length &&& 0xff).toUInt8.toUInt16 = UInt16.ofNat length := by
    rw [toUInt8_shiftRight (by omega), toUInt8_and]
    exact crcOfBytes_crcBytes _
  have fits : (UInt16.ofNat length).toNat ≤ comMaxPayload := by
    rw [UInt16.toNat_ofNat', comMaxPayload]
    omega
  simp only [packageHeader, feed_cons, feed_nil, feedByte, afterEmptyPayload, parseTurn, afterTurn,
    isA5, reduceCtorEq, false_and, if_false, if_true, number, fits, headed]

def dueCall (parser : ComParser) : ComCall :=
  ⟨parser.cmd, parser.payload, parser.len, parser.parsed + 1⟩

theorem feedByte_crc2 (isCrc2 : parser.sta = .crc2) {byte : UInt8}
    (right : bootloaderCrc16Ccitt (readAt parser.payload 0 parser.len.toNat) =
      (parser.crc <<< 8) ||| byte.toUInt16) (device : Device) :
    feedByte handle (parser, device) byte =
      ({ parser with
          sta := .a5
          crc := (parser.crc <<< 8) ||| byte.toUInt16
          payload := (handle device (dueCall parser)).2
          parsed := parser.parsed + 1 }, (handle device (dueCall parser)).1) := by
  have notData : parser.sta ≠ .data := by simp [isCrc2]
  rw [feedByte]
  rw [afterEmptyPayload_of_ne notData]
  simp only [parseTurn, isCrc2, if_pos right, afterTurn]
  rfl

theorem feed_payload (isData : parser.sta = .data) (none : parser.count = 0)
    (isLength : parser.len = UInt16.ofNat payload.length) (small : payload.length < 2 ^ 16)
    (device : Device) (byte : UInt8) : feed handle (parser, device) (payload ++ [byte]) =
      ({ parser with
          sta := .crc2
          count := parser.len
          crc := byte.toUInt16
          payload := writeAt parser.payload 0 payload
          parsed := parser.parsed + payload.length + 1 }, device) := by
  rw [feed_append, feed_cons, feed_nil]
  by_cases empty : payload = []
  · subst empty
    rcases parser with ⟨sta, cmd, count, len, crc, memory, parsed⟩
    subst isData none isLength
    rfl
  have length : parser.len.toNat = payload.length := by
    rw [isLength, UInt16.toNat_ofNat_of_lt' small]
  have zero : parser.count.toNat = 0 := congrArg UInt16.toNat none
  rw [feed_data handle empty isData (by omega), copied, zero, none, UInt16.zero_add, isLength,
    if_pos rfl]
  rfl

def received (parser : ComParser) (cmd : UInt8) (payload : List UInt8) : ComParser :=
  { parser with
    sta := .crc2
    cmd
    count := UInt16.ofNat payload.length
    len := UInt16.ofNat payload.length
    crc := (bootloaderCrc16Ccitt payload >>> 8).toUInt8.toUInt16
    payload := writeAt parser.payload 0 payload
    parsed := parser.parsed + payload.length + 6 }

/-- From its first state, the receiver hands a package on when its last byte comes. -/
theorem feed_package (isA5 : parser.sta = .a5) (small : payload.length ≤ comMaxPayload)
    (device : Device) : feed handle (parser, device) (bootloaderPackageData cmd payload) =
      ({ received parser cmd payload with
          sta := .a5
          crc := bootloaderCrc16Ccitt payload
          payload := (handle device (dueCall (received parser cmd payload))).2
          parsed := parser.parsed + payload.length + 7 },
        (handle device (dueCall (received parser cmd payload))).1) := by
  have bound : payload.length < 2 ^ 16 := by
    unfold comMaxPayload at small
    omega
  have checksum : (bootloaderCrc16Ccitt payload >>> 8).toUInt8.toUInt16 <<< 8 |||
      (bootloaderCrc16Ccitt payload &&& 0xff).toUInt8.toUInt16 = bootloaderCrc16Ccitt payload := by
    rw [crc_and]
    exact crcOfBytes_crcBytes _
  have length := UInt16.toNat_ofNat_of_lt' bound
  have parts : payload ++ packageTrailer payload =
      (payload ++ [(bootloaderCrc16Ccitt payload >>> 8).toUInt8]) ++
        [(bootloaderCrc16Ccitt payload &&& 0xff).toUInt8] := by
    rw [append_assoc]
    rfl
  have state : feed handle (headed parser cmd payload.length, device)
      (payload ++ [(bootloaderCrc16Ccitt payload >>> 8).toUInt8]) =
        (received parser cmd payload, device) := by
    rw [feed_payload handle rfl rfl rfl bound]
    simp only [headed, received, Nat.add_right_comm]
  have right : bootloaderCrc16Ccitt (readAt (received parser cmd payload).payload 0
      (received parser cmd payload).len.toNat) = bootloaderCrc16Ccitt payload := by
    rw [received]
    rw [length, readAt_writeAt]
  rw [bootloaderPackageData_eq, feed_append, feed_header handle isA5 small, parts, feed_append,
    state, feed_cons, feed_nil, feedByte_crc2 handle rfl (right.trans checksum.symm)]
  simp only [received, checksum]

/-! ## The calls -/

structure HandledCall where
  parsed : Nat
  cmd : UInt8
  payload : List UInt8
  deriving DecidableEq

def handled (call : ComCall) : HandledCall :=
  ⟨call.parsed, call.cmd, readAt call.payload 0 call.len.toNat⟩

def logging {Device : Type} (handle : ComHandle Device) :
    ComHandle (Device × List HandledCall) := fun state call =>
  (((handle state.1 call).1, state.2 ++ [handled call]), (handle state.1 call).2)

def seen (parser : ComParser) : Nat :=
  match parser.sta with
  | .a5 => 0
  | .magic5A => 1
  | .cmd => 2
  | .len1 => 3
  | .len2 => 4
  | .data => 5 + parser.count.toNat
  | .crc1 => 5 + parser.len.toNat
  | .crc2 => 6 + parser.len.toNat

theorem seen_afterEmptyPayload (parser : ComParser) :
    seen parser.afterEmptyPayload = seen parser := by
  unfold afterEmptyPayload
  split
  next empty => simp only [seen, empty]
  · rfl

theorem parsed_afterEmptyPayload (parser : ComParser) :
    parser.afterEmptyPayload.parsed = parser.parsed := by
  unfold afterEmptyPayload
  split <;> rfl

theorem seen_parseTurn (missing : parser.sta = .data → parser.count.toNat < parser.len.toNat)
    (byte : UInt8) : (parser.parseTurn byte []).1.parsed = parser.parsed + 1 ∧
      seen (parser.parseTurn byte []).1 ≤ seen parser + 1 := by
  rcases parser with ⟨sta, cmd, count, len, crc, payload, parsed⟩
  cases sta with
  | a5 => by_cases isMagic : byte = 0xa5 <;> simp [parseTurn, seen, isMagic]
  | magic5A => by_cases isMagic : byte = 0x5a <;> simp [parseTurn, seen, isMagic]
  | cmd | len1 | crc2 => simp [parseTurn, seen]
  | len2 =>
    simp only [parseTurn]
    split <;> simp [seen]
  | data =>
    have missing := missing rfl
    dsimp only at missing
    have one : min [byte].length (len.toNat - count.toNat) = 1 := by
      rw [length_singleton]
      omega
    have more : (count + UInt16.ofNat 1).toNat ≤ count.toNat + 1 := Nat.mod_le _ _
    simp only [parseTurn, one, seen, true_and]
    by_cases all : count + UInt16.ofNat 1 = len
    · rw [if_pos all]
      dsimp only
      rw [← all]
      omega
    · rw [if_neg all]
      dsimp only
      omega
  | crc1 =>
    simp only [parseTurn, seen, true_and]
    omega

theorem seen_of_call (due : (parser.parseTurn byte []).2.2 = some call) :
    call.parsed = parser.parsed + 1 ∧ seen parser = call.len.toNat + 6 := by
  rcases parser with ⟨sta, cmd, count, len, crc, payload, parsed⟩
  cases sta with
  | len2 =>
    simp only [parseTurn] at due
    split at due <;> cases due
  | a5 | magic5A | cmd | len1 | data | crc1 => cases due
  | crc2 =>
    simp only [parseTurn] at due
    split at due
    · cases due
      exact ⟨rfl, add_comm _ _⟩
    · cases due

theorem calls_prefix_feed (state : ComParser × Device × List HandledCall) (bytes : List UInt8) :
    state.2.2 <+: (feed (logging handle) state bytes).2.2 := by
  induction bytes generalizing state with
  | nil => exact prefix_refl _
  | cons byte bytes induction =>
    apply IsPrefix.trans _ (induction (feedByte (logging handle) state byte))
    rw [feedByte]
    cases (state.1.afterEmptyPayload.parseTurn byte []).2.2 with
    | none => exact prefix_refl _
    | some call => exact prefix_append _ _

def CallsFrom (start finish : Nat) (calls : List HandledCall) : Prop :=
  ∀ call ∈ calls, start + call.payload.length + 7 ≤ call.parsed ∧ call.parsed ≤ finish

variable (state : Device × List HandledCall)

theorem feedByte_calls (consistent : parser.Consistent)
    (begun : start + seen parser ≤ parser.parsed) (byte : UInt8) :
    let next := feedByte (logging handle) (parser, state) byte
    next.1.parsed = parser.parsed + 1 ∧ start + seen next.1 ≤ next.1.parsed ∧
      ∃ more, next.2.2 = state.2 ++ more ∧ CallsFrom start next.1.parsed more := by
  -- Once it has made up for an empty payload, the receiver still misses a byte of its payload.
  have missing (isData : parser.afterEmptyPayload.sta = .data) :
      parser.afterEmptyPayload.count.toNat < parser.afterEmptyPayload.len.toNat := by
    unfold afterEmptyPayload at isData ⊢
    split at isData
    · cases isData
    next notEmpty =>
      rw [if_neg notEmpty]
      apply Nat.lt_of_le_of_ne (consistent isData).1
      intro same
      exact notEmpty ⟨isData, UInt16.toNat_inj.mp same⟩
  have turn := seen_parseTurn missing byte
  rw [parsed_afterEmptyPayload, seen_afterEmptyPayload] at turn
  rw [feedByte]
  cases due : (parser.afterEmptyPayload.parseTurn byte []).2.2 with
  | none =>
    rw [afterTurn]
    dsimp only
    refine ⟨turn.1, by omega, [], (append_nil _).symm, ?_⟩
    rintro _ ⟨⟩
  | some call =>
    have last := seen_of_call due
    rw [parsed_afterEmptyPayload, seen_afterEmptyPayload] at last
    rw [afterTurn]
    have seenAfter : seen { (parser.afterEmptyPayload.parseTurn byte []).1 with
        payload := (logging handle state call).2 } =
          seen (parser.afterEmptyPayload.parseTurn byte []).1 := rfl
    refine ⟨turn.1, ?_, [handled call], rfl, ?_⟩
    · rw [seenAfter]
      dsimp only
      omega
    intro other isMember
    rw [mem_singleton.mp isMember]
    have length : (handled call).payload.length = call.len.toNat := length_readAt _ _ _
    have position : (handled call).parsed = call.parsed := rfl
    dsimp only
    omega

theorem feed_calls (consistent : parser.Consistent) (begun : start + seen parser ≤ parser.parsed) :
    let next := feed (logging handle) (parser, state) bytes
    next.1.parsed = parser.parsed + bytes.length ∧
      ∃ more, next.2.2 = state.2 ++ more ∧ CallsFrom start next.1.parsed more := by
  induction bytes generalizing parser state with
  | nil =>
    refine ⟨rfl, [], (append_nil _).symm, ?_⟩
    nofun
  | cons byte bytes induction =>
    rcases feedByte_calls handle state consistent begun byte with
      ⟨parsed, begunAfter, first, isFirst, within⟩
    have follows : (feedByte (logging handle) (parser, state) byte).1.Consistent :=
      consistent_feedByte (logging handle) consistent byte
    rcases induction (feedByte (logging handle) (parser, state) byte).2 follows begunAfter with
      ⟨parsedLater, later, isLater, withinLater⟩
    rw [feed_cons]
    refine ⟨?_, first ++ later, ?_, ?_⟩
    · rw [parsedLater, parsed, length_cons]
      omega
    · rw [isLater, isFirst, append_assoc]
    refine forall_mem_append.mpr ⟨fun call isFirst => ?_, withinLater⟩
    have bounds := within call isFirst
    rw [parsedLater]
    omega

theorem feed_calls_of_a5 (isA5 : parser.sta = .a5) :
    let next := feed (logging handle) (parser, state) bytes
    next.1.parsed = parser.parsed + bytes.length ∧
      ∃ more, next.2.2 = state.2 ++ more ∧ CallsFrom parser.parsed next.1.parsed more := by
  apply feed_calls handle state
  · simp [Consistent, isA5]
  · simp [seen, isA5]

theorem feed_logging (state : ComParser × Device × List HandledCall) (bytes : List UInt8) :
    feed handle (state.1, state.2.1) bytes =
      ((feed (logging handle) state bytes).1, (feed (logging handle) state bytes).2.1) := by
  induction bytes generalizing state with
  | nil => rfl
  | cons byte bytes induction =>
    rw [feed_cons, feed_cons, ← induction]
    rw [feedByte, feedByte]
    cases (state.1.afterEmptyPayload.parseTurn byte []).2.2 with
    | none => rfl
    | some call => rfl

theorem device_of_calls {state : ComParser × Device × List HandledCall}
    (quiet : (feed (logging handle) state bytes).2.2 = state.2.2) :
    (feed (logging handle) state bytes).2.1 = state.2.1 := by
  induction bytes generalizing state with
  | nil => rfl
  | cons byte bytes induction =>
    rw [feed_cons] at quiet ⊢
    have grows := calls_prefix_feed handle (feedByte (logging handle) state byte) bytes
    rw [quiet] at grows
    cases due : (state.1.afterEmptyPayload.parseTurn byte []).2.2 with
    | none =>
      have same : (feedByte (logging handle) state byte).2 = state.2 := by
        rw [feedByte, due, afterTurn]
      rw [← same] at quiet ⊢
      exact induction quiet
    | some call =>
      have more : (feedByte (logging handle) state byte).2.2 = state.2.2 ++ [handled call] := by
        rw [feedByte, due]
        rfl
      rw [more] at grows
      have shorter := grows.length_le
      rw [length_append, length_singleton] at shorter
      omega

theorem feed_package_take (isA5 : parser.sta = .a5) (small : payload.length ≤ comMaxPayload)
    (device : Device) {count : Nat}
    (incomplete : count < (bootloaderPackageData cmd payload).length) :
    (feed handle (parser, device) ((bootloaderPackageData cmd payload).take count)).2 = device := by
  have whole : (feed (logging handle) (parser, device, [])
      (bootloaderPackageData cmd payload)).2.2 =
        [handled (dueCall (received parser cmd payload))] := by
    rw [feed_package (logging handle) isA5 small]
    rfl
  rw [length_bootloaderPackageData, comMinPackageSize] at incomplete
  generalize bootloaderPackageData cmd payload = package at whole ⊢
  rcases feed_calls_of_a5 handle (device, []) isA5 with ⟨parsed, more, isMore, within⟩
  have grows := calls_prefix_feed handle (feed (logging handle) (parser, device, [])
    (package.take count)) (package.drop count)
  rw [← feed_append, take_append_drop, whole, isMore, nil_append] at grows
  rcases prefix_cons_iff.mp grows with none | ⟨rest, isRest, -⟩
  · have quiet : (feed (logging handle) (parser, device, []) (package.take count)).2.2 = [] := by
      rw [isMore, none]
      rfl
    have same := feed_logging handle (parser, device, []) (package.take count)
    rw [device_of_calls handle quiet] at same
    rw [same]
  · have bounds := within (handled (dueCall (received parser cmd payload))) (isRest ▸ mem_cons_self)
    have position : (handled (dueCall (received parser cmd payload))).parsed =
        parser.parsed + payload.length + 7 := rfl
    rw [parsed, position, length_take] at bounds
    omega

/-! ## Packages in a row -/

structure Segment where
  noise : List UInt8
  cmd : UInt8
  payload : List UInt8
  noPair : ¬[0xa5, 0x5a] <:+: noise
  fits : payload.length ≤ comMaxPayload

namespace Segment

def bytes (segment : Segment) : List UInt8 :=
  segment.noise ++ bootloaderPackageData segment.cmd segment.payload

theorem length_bytes (segment : Segment) :
    segment.bytes.length = segment.noise.length + segment.payload.length + 7 := by
  rw [bytes, length_append, length_bootloaderPackageData, comMinPackageSize, add_assoc]

def call (segment : Segment) (start : Nat) : HandledCall :=
  ⟨start + segment.bytes.length, segment.cmd, segment.payload⟩

end Segment

def stream (segments : List Segment) : List UInt8 := segments.flatMap Segment.bytes

/-- One call for each package, when its last byte is parsed. -/
def expected (start : Nat) : List Segment → List HandledCall
  | [] => []
  | segment :: segments =>
    segment.call start :: expected (start + segment.bytes.length) segments

theorem expected_parsed_of_getLast (nonempty : segments ≠ []) :
    ∃ call ∈ expected start segments, call.parsed = start + (stream segments).length := by
  induction segments generalizing start with
  | nil => exact absurd rfl nonempty
  | cons segment segments induction =>
    rw [stream, flatMap_cons, length_append]
    by_cases last : segments = []
    · subst last
      exact ⟨_, mem_singleton_self _, rfl⟩
    · rcases induction last with ⟨call, isMember, position⟩
      refine ⟨call, mem_cons_of_mem _ isMember, ?_⟩
      rw [position, stream, add_assoc]

theorem feed_segment_even {segment : Segment} (even : trailingMagic segment.noise % 2 = 0)
    (isA5 : parser.sta = .a5) :
    ∃ next device, feed (logging handle) (parser, state) segment.bytes =
        (next, device, state.2 ++ [segment.call parser.parsed]) ∧
      next.sta = .a5 ∧ next.parsed = parser.parsed + segment.bytes.length := by
  have noise : afterNoise segment.noise = .a5 := by
    rw [afterNoise, if_neg (by omega)]
  have length := segment.length_bytes
  have small := segment.fits
  rw [Segment.bytes, feed_append, feed_noise (logging handle) segment.noPair isA5, noise,
    feed_package (logging handle) rfl segment.fits]
  refine ⟨_, _, Prod.ext rfl (Prod.ext rfl ?_), rfl, ?_⟩
  · have isLength : (UInt16.ofNat segment.payload.length).toNat = segment.payload.length := by
      unfold comMaxPayload at small
      rw [UInt16.toNat_ofNat']
      omega
    simp only [logging, handled, dueCall, received, Segment.call, isLength, readAt_writeAt, length]
    congr 3
    omega
  · rw [← Segment.bytes, length]
    dsimp only
    omega

/-- The receiver takes the first byte of the package for the end of the noise. -/
theorem feed_segment_odd {segment : Segment} (odd : trailingMagic segment.noise % 2 = 1)
    (isA5 : parser.sta = .a5) (rest : List UInt8) : ∃ more finish,
      (feed (logging handle) (parser, state) (segment.bytes ++ rest)).2.2 = state.2 ++ more ∧
        CallsFrom (parser.parsed + segment.noise.length + 1) finish more := by
  have noise : afterNoise segment.noise = .magic5A := by
    rw [afterNoise, if_pos odd]
  have parts : segment.bytes ++ rest = segment.noise ++
      (0xa5 :: ((bootloaderPackageData segment.cmd segment.payload).tail ++ rest)) := by
    rw [Segment.bytes, append_assoc]
    rfl
  rw [parts, feed_append, feed_noise (logging handle) segment.noPair isA5, noise, feed_cons,
    feedByte_magic5A (logging handle) rfl, if_neg (by decide)]
  let missed : ComParser := { parser with
    sta := .a5
    parsed := parser.parsed + segment.noise.length + 1 }
  rcases feed_calls_of_a5 handle state (rfl : missed.sta = .a5) with ⟨-, more, isMore, within⟩
  exact ⟨more, _, isMore, within⟩

/-- All calls are made exactly if no noise ends in the middle of a magic pair. -/
theorem expected_prefix_iff (isA5 : parser.sta = .a5) (rest : List UInt8) :
    state.2 ++ expected parser.parsed segments <+:
        (feed (logging handle) (parser, state) (stream segments ++ rest)).2.2 ↔
      ∀ segment ∈ segments, trailingMagic segment.noise % 2 = 0 := by
  induction segments generalizing parser state with
  | nil =>
    rcases feed_calls_of_a5 handle state isA5 with ⟨-, more, isMore, -⟩
    refine iff_of_true ?_ (by simp)
    rw [expected, append_nil]
    exact ⟨more, isMore.symm⟩
  | cons segment segments induction =>
    rw [stream, flatMap_cons, append_assoc, forall_mem_cons, expected]
    rcases Nat.mod_two_eq_zero_or_one (trailingMagic segment.noise) with even | odd
    · rcases feed_segment_even handle state even isA5 with ⟨next, device, fed, nextA5, parsed⟩
      have later := induction (device, state.2 ++ [segment.call parser.parsed]) nextA5
      rw [parsed, append_assoc, singleton_append] at later
      rw [feed_append, fed, ← stream, later]
      exact (and_iff_right even).symm
    rcases feed_segment_odd handle state odd isA5 (segments.flatMap Segment.bytes ++ rest)
      with ⟨more, finish, isMore, within⟩
    refine iff_of_false ?_ (fun all => by omega)
    rw [isMore, prefix_append_right_inj]
    intro isPrefix
    have bounds := within _ (isPrefix.subset (mem_cons_self ..))
    have length := segment.length_bytes
    simp only [Segment.call] at bounds
    omega

theorem feed_stream (even : ∀ segment ∈ segments, trailingMagic segment.noise % 2 = 0)
    (isA5 : parser.sta = .a5) :
    ∃ next device, feed (logging handle) (parser, state) (stream segments) =
        (next, device, state.2 ++ expected parser.parsed segments) ∧ next.sta = .a5 := by
  induction segments generalizing parser state with
  | nil => exact ⟨parser, state.1, by simp [stream, expected], isA5⟩
  | cons segment segments induction =>
    rw [forall_mem_cons] at even
    rcases feed_segment_even handle state even.1 isA5 with
      ⟨middle, device, fed, middleA5, parsed⟩
    rcases induction (device, state.2 ++ [segment.call parser.parsed]) even.2 middleA5 with
      ⟨next, nextDevice, later, nextA5⟩
    refine ⟨next, nextDevice, ?_, nextA5⟩
    rw [stream, flatMap_cons, ← stream, feed_append, fed, later, parsed, expected,
      append_assoc, singleton_append]

/-- A part of the stream makes all the calls exactly if no noise ends in the middle of a magic
pair and the part has all the packages. -/
theorem calls_take_iff {noise : List UInt8} (noPair : ¬[0xa5, 0x5a] <:+: noise) (device : Device)
    (count : Nat) : (feed (logging handle) (initial, device, [])
        ((stream segments ++ noise).take count)).2.2 = expected 0 segments ↔
      (∀ segment ∈ segments, trailingMagic segment.noise % 2 = 0) ∧
        (stream segments).length ≤ count := by
  constructor
  · intro same
    constructor
    · rw [← expected_prefix_iff handle (device, []) (rfl : initial.sta = .a5) noise,
        ← take_append_drop count (stream segments ++ noise), feed_append]
      have grows := calls_prefix_feed handle (feed (logging handle)
        (initial, device, []) ((stream segments ++ noise).take count))
          ((stream segments ++ noise).drop count)
      rw [same] at grows
      exact grows
    by_cases none : segments = []
    · rw [none]
      exact Nat.zero_le _
    rcases feed_calls_of_a5 handle (device, []) (rfl : initial.sta = .a5) with
      ⟨parsed, more, isMore, within⟩
    rw [same, nil_append] at isMore
    rcases expected_parsed_of_getLast none with ⟨call, isMember, position⟩
    have bounds := within call (isMore ▸ isMember)
    rw [parsed, position, length_take] at bounds
    have zero : initial.parsed = 0 := rfl
    omega
  · rintro ⟨even, enough⟩
    rcases feed_stream handle (device, []) even (rfl : initial.sta = .a5) with
      ⟨next, nextDevice, fed, nextA5⟩
    have noPairBefore : ¬[0xa5, 0x5a] <:+: noise.take (count - (stream segments).length) :=
      fun pair => noPair <| pair.trans <| IsPrefix.isInfix <| take_prefix _ _
    rw [take_append, take_of_length_le enough, feed_append, fed,
      feed_noise (logging handle) noPairBefore nextA5]
    rfl

end CentauriCarbon.Bootloader
