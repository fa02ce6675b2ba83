import Mathlib.Data.List.TakeWhile
import Mathlib.Logic.Function.Basic
import CentauriCarbon.Codec.IntegerCodec
import CentauriCarbon.Protocol.Message

/-! # Messages on the wire

Parameter lists in both directions: `MessageFormat::encode_by_name` of the host read by
`command_parsef` of the micro-controller, and `command_encodef` of the micro-controller
read by `MessageFormat::parse` of the host.
-/

namespace CentauriCarbon.Codec

open List Protocol

inductive ParamType where
  | uint32
  | int32
  | uint16
  | int16
  | byte
  | string
  | progmemBuffer
  | buffer
  deriving DecidableEq

namespace ParamType

def isInt : ParamType → Bool
  | uint32 | int32 | uint16 | int16 | byte => true
  | string | progmemBuffer | buffer => false

def signedValue : ParamType → Bool
  | int32 | int16 => true
  | uint32 | uint16 | byte | string | progmemBuffer | buffer => false

end ParamType

/-- An argument in the micro-controller's memory: a word, or a length and a pointer to
as many bytes. -/
inductive Argument where
  | word (v : UInt32)
  | buffer (data : List UInt8)

/-- Why `command_parsef` does not return: its own shutdown, or a read past the bytes
that were given to it. -/
inductive ParseFault where
  | commandParserError
  | readPastBuffer

/-- One round of `command_parsef`, where `p` points to `buf` and `maxend` to the last
`trailing` bytes of it. -/
def parseParam (trailing : Nat) (type : ParamType) (buf : List UInt8) :
    Except ParseFault (Argument × List UInt8) :=
  if buf.length < trailing then .error .commandParserError
  else if type.isInt then
    match parseInt buf with
    | none => .error .readPastBuffer
    | some (v, p) => .ok (.word v, p)
  else if type = .buffer then
    match buf with
    | [] => .error .readPastBuffer
    | len :: p =>
      if p.length < len.toNat + trailing then .error .commandParserError
      else .ok (.buffer (p.take len.toNat), p.drop len.toNat)
  else .error .commandParserError

def commandParsef (trailing : Nat) :
    List ParamType → List UInt8 → Except ParseFault (List Argument × List UInt8)
  | [], buf => .ok ([], buf)
  | type :: types, buf => do
      let (arg, p) ← parseParam trailing type buf
      let (args, p) ← commandParsef trailing types p
      return (arg :: args, p)

def encodeMsgid (encodedMsgid : UInt16) : List UInt8 :=
  (if encodedMsgid ≥ 0x80 then [((encodedMsgid >>> 7) ||| 0x80).toUInt8] else []) ++
    [(encodedMsgid &&& 0x7f).toUInt8]

structure CommandEncoder where
  encodedMsgid : UInt16
  maxSize : UInt8
  paramTypes : List ParamType

def CommandEncoder.capacity (ce : CommandEncoder) : Nat := ce.maxSize.toNat - messageMin

def copyString (room : Nat) (s : List UInt8) : List UInt8 := (s.takeWhile (· ≠ 0)).take room

/-- One round of `command_encodef` behind the bytes already written. `none` is the
shutdown "Message encode error", or an argument of another kind than the type asks
for. -/
def encodeParam (capacity : Nat) (type : ParamType) (arg : Argument)
    (written : List UInt8) : Option (List UInt8) :=
  if written.length > capacity then none
  else
    match type.isInt, arg with
    | true, .word v => some (written ++ encodeInt v)
    | false, .buffer s =>
      let copied :=
        if type = .string then copyString (capacity - (written.length + 1)) s
        else s.take (capacity - written.length)
      some (written ++ UInt8.ofNat copied.length :: copied)
    | _, _ => none

def encodeParams (capacity : Nat) :
    List ParamType → List Argument → List UInt8 → Option (List UInt8)
  | [], _, written => some written
  | _ :: _, [], _ => none
  | type :: types, arg :: args, written => do
      let written ← encodeParam capacity type arg written
      encodeParams capacity types args written

def commandEncodef (ce : CommandEncoder) (args : List Argument) : Option (List UInt8 × Nat) :=
  if ce.maxSize.toNat ≤ messageMin then some ([], ce.maxSize.toNat)
  else
    (encodeParams ce.capacity ce.paramTypes args (encodeMsgid ce.encodedMsgid)).map
      fun payload => (payload, messageHeaderSize + payload.length + messageTrailerSize)

def stdToString (value : Int) : List Char :=
  if value < 0 then '-' :: Nat.toDigits 10 value.natAbs else Nat.toDigits 10 value.natAbs

def isSpace (c : Char) : Bool := c = ' ' ∨ 9 ≤ c.toNat ∧ c.toNat ≤ 13

def stollDigits (text : List Char) : Option Nat :=
  let digits := text.takeWhile Char.isDigit
  if digits.isEmpty then none else some (Nat.ofDigitChars 10 digits 0)

def inLongLong (value : Int) : Bool := -(2 ^ 63) ≤ value ∧ value < 2 ^ 63

/-- `std::stoll`; `none` is one of its exceptions. -/
def stoll (text : List Char) : Option Int :=
  let signed := match text.dropWhile isSpace with
    | '-' :: rest => (stollDigits rest).map fun (magnitude : Nat) => -(magnitude : Int)
    | '+' :: rest => (stollDigits rest).map fun (magnitude : Nat) => (magnitude : Int)
    | rest => (stollDigits rest).map fun (magnitude : Nat) => (magnitude : Int)
  signed.filter inLongLong

inductive Value where
  | text (digits : List Char)
  | data (bytes : List UInt8)

structure Param where
  name : String
  type : ParamType

structure MessageFormat where
  msgidBytes : List UInt8
  paramNames : List Param

/-- `PT_base::encode` and `PT_string::encode`; `none` is a failed cast or `stoll`. -/
def encodeValue (type : ParamType) (value : Value) : Option (List UInt8) :=
  if type.isInt then
    match value with
    | .text digits => (stoll digits).map ptEncode
    | .data _ => none
  else
    match value with
    | .text _ => none
    | .data bytes => some (UInt8.ofNat bytes.length :: bytes)

def encodeNamed (params : List (String × Value)) : List Param → Option (List UInt8)
  | [] => some []
  | param :: rest => do
      let value ← params.lookup param.name
      let encoded ← encodeValue param.type value
      let out ← encodeNamed params rest
      return encoded ++ out

def MessageFormat.encodeByName (format : MessageFormat) (params : List (String × Value)) :
    Option (List UInt8) :=
  (encodeNamed params format.paramNames).map fun out => format.msgidBytes ++ out

/-- `PT_string::parseStr`, which answers out-of-range reads with an empty string and
position zero. -/
def parseStr (s : List UInt8) (pos : Nat) : List UInt8 × Nat :=
  match s[pos]? with
  | none => ([], 0)
  | some l =>
    if pos + 1 + l.toNat > s.length then ([], 0)
    else ((s.drop (pos + 1)).take l.toNat, pos + 1 + l.toNat)

def parseValue (type : ParamType) (s : List UInt8) (pos : Nat) : Option (Value × Nat) :=
  if type.isInt then
    (ptParse type.signedValue s pos).map fun (v, pos) =>
      (.text (stdToString (if type.signedValue then v.toInt32.toInt else v.toNat)), pos)
  else
    let (bytes, pos) := parseStr s pos
    some (.data bytes, pos)

/-- The loop of `MessageFormat::parse`, which assigns to the map `out`. -/
def parseNamed (s : List UInt8) :
    List Param → Nat → (String → Option Value) → Option ((String → Option Value) × Nat)
  | [], pos, out => some (out, pos)
  | param :: rest, pos, out => do
      let (value, pos) ← parseValue param.type s pos
      parseNamed s rest pos (Function.update out param.name (some value))

def MessageFormat.parse (format : MessageFormat) (s : List UInt8) (pos : Nat) :
    Option ((String → Option Value) × Nat) :=
  parseNamed s format.paramNames (pos + format.msgidBytes.length) fun _ => none

theorem stollDigits_toDigits (magnitude : Nat) :
    stollDigits (Nat.toDigits 10 magnitude) = some magnitude := by
  have allDigits : (Nat.toDigits 10 magnitude).takeWhile Char.isDigit =
      Nat.toDigits 10 magnitude := by
    apply takeWhile_eq_self_iff.mpr
    intro digit member
    exact Nat.isDigit_of_mem_toDigits (by decide) (by decide) member
  have nonempty : (Nat.toDigits 10 magnitude).isEmpty = false := by
    simp
  rw [stollDigits, allDigits, nonempty, Nat.ofDigitChars_toDigits (by decide) (by decide)]
  rfl

theorem isSpace_of_isDigit {c : Char} (isDigit : c.isDigit) : isSpace c = false := by
  simp only [Char.isDigit, ge_iff_le, Bool.and_eq_true, decide_eq_true_eq] at isDigit
  have low : 48 ≤ c.toNat := isDigit.1
  apply decide_eq_false
  rintro (rfl | blank)
  · exact absurd low (by decide)
  · omega

theorem stoll_toDigits (magnitude : Nat) :
    stoll (Nat.toDigits 10 magnitude) = (some (magnitude : Int)).filter inLongLong := by
  have digits := stollDigits_toDigits magnitude
  cases text : Nat.toDigits 10 magnitude with
  | nil => exact absurd text Nat.toDigits_ne_nil
  | cons first rest =>
    have isDigit : first.isDigit :=
      Nat.isDigit_of_mem_toDigits (by decide) (by decide) (text ▸ mem_cons_self)
    rw [text] at digits
    unfold stoll
    rw [dropWhile_cons_of_neg (by simp [isSpace_of_isDigit isDigit])]
    split
    · rename_i minus
      cases minus
      exact absurd isDigit (by decide)
    · rename_i plus
      cases plus
      exact absurd isDigit (by decide)
    · rw [digits]
      rfl

theorem stoll_stdToString (low : -(2 ^ 63) ≤ value) (high : value < 2 ^ 63) :
    stoll (stdToString value) = some value := by
  have inRange : inLongLong value := decide_eq_true ⟨low, high⟩
  unfold stdToString
  split
  · have magnitude : -(value.natAbs : Int) = value := by omega
    unfold stoll
    rw [dropWhile_cons_of_neg (by decide)]
    simp only [stollDigits_toDigits, Option.map_some, magnitude]
    exact Option.filter_some_pos inRange
  · have magnitude : (value.natAbs : Int) = value := by omega
    rw [stoll_toDigits, magnitude]
    exact Option.filter_some_pos inRange

/-! ## Host to micro-controller -/

inductive HostArgument where
  | integer (value : Int)
  | buffer (data : List UInt8)

namespace HostArgument

def value : HostArgument → Value
  | integer value => .text (stdToString value)
  | buffer data => .data data

def encoded : HostArgument → List UInt8
  | integer value => ptEncode value
  | buffer data => UInt8.ofNat data.length :: data

def received : HostArgument → Argument
  | integer value => .word (UInt32.ofInt value)
  | buffer data => .buffer data

def InRange (type : ParamType) : HostArgument → Prop
  | integer value => type.isInt = true ∧ -(2 ^ 31) ≤ value ∧ value < 2 ^ 32
  | buffer data => type = .buffer ∧ data.length ≤ 255

end HostArgument

variable {args : List Argument} {type : ParamType} {names : List Param} {arg : Argument}

variable {argument : HostArgument} {types : List ParamType}
    {capacity written : Nat} {s rest : List UInt8}

theorem encodeValue_eq (inRange : argument.InRange type) :
    encodeValue type argument.value = some argument.encoded := by
  cases argument with
  | integer value =>
    rcases inRange with ⟨isInt, low, high⟩
    have text : stoll (stdToString value) = some value := stoll_stdToString (by omega) (by omega)
    simp [encodeValue, isInt, HostArgument.value, HostArgument.encoded, text]
  | buffer data =>
    rcases inRange with ⟨rfl, short⟩
    rfl

theorem encodeNamed_eq {params : List (String × Value)}
    (given : Forall₂ (fun param argument =>
      argument.InRange param.type ∧ params.lookup param.name = some argument.value)
      names arguments) :
    encodeNamed params names = some (arguments.flatMap HostArgument.encoded) := by
  induction given with
  | nil => rfl
  | cons head tail induction =>
    rw [encodeNamed, head.2, induction]
    simp [encodeValue_eq head.1]

theorem toNat_ofNat_length {data : List UInt8} (short : data.length ≤ 255) :
    (UInt8.ofNat data.length).toNat = data.length := by
  rw [UInt8.toNat_ofNat']
  omega

theorem parseParam_encoded (inRange : argument.InRange type) (bounded : trailing ≤ rest.length) :
    parseParam trailing type (argument.encoded ++ rest) = .ok (argument.received, rest) := by
  have notPast : ¬ (argument.encoded ++ rest).length < trailing := by
    rw [length_append]
    omega
  unfold parseParam
  rw [if_neg notPast]
  cases argument with
  | integer value =>
    rw [if_pos inRange.1, HostArgument.encoded, parseInt_ptEncode]
    rfl
  | buffer data =>
    rcases inRange with ⟨rfl, short⟩
    have length := toNat_ofNat_length short
    simp [ParamType.isInt, HostArgument.encoded, HostArgument.received, length, bounded]

theorem commandParsef_encoded
    (inRange : Forall₂ (fun type argument => argument.InRange type) types arguments)
    (bounded : trailing ≤ rest.length) :
    commandParsef trailing types (arguments.flatMap HostArgument.encoded ++ rest) =
      .ok (arguments.map HostArgument.received, rest) := by
  induction inRange with
  | nil => rfl
  | cons head tail induction =>
    rw [flatMap_cons, append_assoc, commandParsef, parseParam_encoded head]
    · change (do
        let (args, p) ← commandParsef trailing _ _
        return (_ :: args, p)) = _
      rw [induction]
      rfl
    · rw [length_append]
      omega

/-! ## Micro-controller to host -/

namespace Argument

def encoded : Argument → List UInt8
  | word v => encodeInt v
  | buffer data => UInt8.ofNat data.length :: data

def reported (type : ParamType) : Argument → Value
  | word v => .text (stdToString (if type.signedValue then v.toInt32.toInt else v.toNat))
  | buffer data => .data data

/-- The argument is of the kind that the type asks for, the space behind the bytes
already written is not exhausted, and it is not cut short. -/
def fits (capacity : Nat) (type : ParamType) (written : Nat) : Argument → Bool
  | word _ => type.isInt ∧ written ≤ capacity
  | buffer data =>
    ¬ type.isInt ∧ written ≤ capacity ∧
      if type = .string then written + 1 + data.length ≤ capacity ∧ 0 ∉ data
      else written + data.length ≤ capacity

end Argument

/-- No argument is truncated on its way into the message. -/
def untruncated (capacity : Nat) : List ParamType → List Argument → Nat → Bool
  | [], [], _ => true
  | type :: types, arg :: args, written =>
    arg.fits capacity type written && untruncated capacity types args (written + arg.encoded.length)
  | _, _, _ => false

theorem encodeParam_eq {written : List UInt8} (fits : arg.fits capacity type written.length) :
    encodeParam capacity type arg written = some (written ++ arg.encoded) := by
  unfold encodeParam
  cases arg with
  | word v =>
    rcases of_decide_eq_true fits with ⟨isInt, room⟩
    rw [if_neg (Nat.not_lt.mpr room), isInt]
    rfl
  | buffer data =>
    rcases of_decide_eq_true fits with ⟨notInt, room, uncut⟩
    rw [if_neg (Nat.not_lt.mpr room), Bool.eq_false_iff.mpr notInt]
    split at uncut
    · rename_i isString
      have whole : copyString (capacity - (written.length + 1)) data = data := by
        rw [copyString, takeWhile_eq_self_iff.mpr, take_of_length_le (by omega)]
        intro byte member
        exact decide_eq_true fun zero => uncut.2 (zero ▸ member)
      simp [isString, whole, Argument.encoded]
    · rename_i notString
      have whole : data.take (capacity - written.length) = data := take_of_length_le (by omega)
      simp [notString, whole, Argument.encoded]

theorem encodeParams_eq {written : List UInt8}
    (whole : untruncated capacity types args written.length) :
    encodeParams capacity types args written = some (written ++ args.flatMap Argument.encoded) := by
  induction types generalizing args written with
  | nil =>
    cases args with
    | nil => simp [encodeParams]
    | cons arg args => cases whole
  | cons type types induction =>
    cases args with
    | nil => cases whole
    | cons arg args =>
      rcases Bool.and_eq_true_iff.mp whole with ⟨fits, others⟩
      rw [← length_append] at others
      rw [encodeParams, encodeParam_eq fits, flatMap_cons, ← append_assoc]
      exact induction others

def Argument.Readable (type : ParamType) : Argument → Prop
  | .word _ => type.isInt = true
  | .buffer data => type.isInt = false ∧ data.length ≤ 255

theorem parseStr_encoded {s data rest : List UInt8}
    (at_pos : s.drop pos = UInt8.ofNat data.length :: (data ++ rest)) (short : data.length ≤ 255) :
    parseStr s pos = (data, pos + 1 + data.length) := by
  have first : s[pos]? = some (UInt8.ofNat data.length) := by
    rw [← head?_drop, at_pos]
    rfl
  have tail : s.drop (pos + 1) = data ++ rest := by
    rw [← drop_drop, at_pos]
    rfl
  have total := congrArg length at_pos
  simp only [length_drop, length_cons, length_append] at total
  rw [parseStr, first]
  dsimp only
  rw [toNat_ofNat_length short, if_neg (by omega), tail, take_left]

theorem parseValue_encoded (readable : arg.Readable type)
    (at_pos : s.drop pos = arg.encoded ++ rest) :
    parseValue type s pos = some (arg.reported type, pos + arg.encoded.length) := by
  unfold parseValue
  cases arg with
  | word v =>
    have isInt : type.isInt := readable
    rw [if_pos isInt, ptParse_encodeInt type.signedValue at_pos]
    rfl
  | buffer data =>
    rcases readable with ⟨notInt, short⟩
    rw [if_neg (by simp [notInt]), parseStr_encoded at_pos short]
    simp [Argument.reported, Argument.encoded, add_assoc, add_comm 1]

/-- What the host reports for a name: the last argument that has it. -/
def reportedValues (names : List Param) (args : List Argument) (name : String) : Option Value :=
  (zipWith (fun param arg => (param.name, arg.reported param.type)) names args).reverse.lookup name

theorem reportedValues_cons (param : Param) (names : List Param) (arg : Argument)
    (args : List Argument) (out : String → Option Value) (name : String) :
    (reportedValues (param :: names) (arg :: args) name).or (out name) =
      (reportedValues names args name).or
        (Function.update out param.name (some (arg.reported param.type)) name) := by
  rw [reportedValues, zipWith_cons_cons, reverse_cons, lookup_append, Option.or_assoc]
  congr 1
  rcases eq_or_ne name param.name with rfl | other
  · rw [lookup_cons_self, Function.update_self]
    rfl
  · rw [lookup_cons, beq_false_of_ne other, Function.update_of_ne other]
    rfl

theorem parseNamed_encoded
    (readable : Forall₂ (fun param arg => arg.Readable param.type) names args)
    (at_pos : s.drop pos = args.flatMap Argument.encoded ++ rest) : parseNamed s names pos out =
      some (fun name => (reportedValues names args name).or (out name),
        pos + (args.flatMap Argument.encoded).length) := by
  induction readable generalizing pos out with
  | nil => rfl
  | @cons param arg names args head tail induction =>
    rw [flatMap_cons, append_assoc] at at_pos
    have next : s.drop (pos + arg.encoded.length) = args.flatMap Argument.encoded ++ rest := by
      rw [← drop_drop, at_pos, drop_left]
    rw [parseNamed, parseValue_encoded head at_pos]
    simp [induction next, reportedValues_cons, add_assoc]

theorem readable_of_untruncated
    (whole : untruncated capacity (names.map Param.type) args written)
    (small : capacity ≤ 255) : Forall₂ (fun param arg => arg.Readable param.type) names args := by
  induction names generalizing args written with
  | nil =>
    cases args with
    | nil => exact .nil
    | cons arg args => cases whole
  | cons param names induction =>
    cases args with
    | nil => cases whole
    | cons arg args =>
      rcases Bool.and_eq_true_iff.mp whole with ⟨fits, others⟩
      refine .cons ?_ (induction others)
      cases arg with
      | word v => exact (of_decide_eq_true fits).1
      | buffer data =>
        rcases of_decide_eq_true fits with ⟨notInt, -, uncut⟩
        refine ⟨Bool.eq_false_iff.mpr notInt, ?_⟩
        split at uncut <;> omega

theorem drop_addFrame (seq : UInt8) (payload : List UInt8) :
    ∃ trailer, (addFrame seq payload).drop messageHeaderSize = payload ++ trailer := by
  unfold addFrame
  rw [append_assoc]
  exact ⟨_, rfl⟩

theorem parse_addFrame {format : MessageFormat}
    (readable : Forall₂ (fun param arg => arg.Readable param.type) format.paramNames args)
    (seq : UInt8) : let block := addFrame seq (format.msgidBytes ++ args.flatMap Argument.encoded)
    format.parse block messageHeaderSize =
      some (reportedValues format.paramNames args, block.length - messageTrailerSize) := by
  intro block
  rcases drop_addFrame seq (format.msgidBytes ++ args.flatMap Argument.encoded) with
    ⟨trailer, payload⟩
  have at_args : block.drop (messageHeaderSize + format.msgidBytes.length) =
      args.flatMap Argument.encoded ++ trailer := by
    rw [← drop_drop, payload, append_assoc, drop_left]
  rw [MessageFormat.parse, parseNamed_encoded readable at_args, length_addFrame, length_append]
  simp only [Option.or_none]
  congr 2
  unfold messageHeaderSize messageMin messageTrailerSize
  omega

/-! ## Round trips -/

/-- Messages survive the wire in both directions. What the host encodes by name, the
micro-controller parses to the same integers modulo `2 ^ 32` and the same buffers, and
stops at the end of the command; the C helper's integers decode like the host's; and
what the micro-controller encodes without truncation, the host reports under the names of the
parameters, up to the trailer of the block. -/
theorem codec_round_trip (format : MessageFormat) (params : List (String × Value))
    (arguments : List HostArgument)
    (given : Forall₂ (fun param argument =>
      argument.InRange param.type ∧ params.lookup param.name = some argument.value)
      format.paramNames arguments)
    (following trailer : List UInt8)
    (ce : CommandEncoder) (sent : List Argument) (seq : UInt8)
    (sameMsgid : encodeMsgid ce.encodedMsgid = format.msgidBytes)
    (sameTypes : ce.paramTypes = format.paramNames.map Param.type)
    (notAck : messageMin < ce.maxSize.toNat)
    (whole : untruncated ce.capacity ce.paramTypes sent
      (encodeMsgid ce.encodedMsgid).length = true) :
    (∃ command, format.encodeByName params = some (format.msgidBytes ++ command) ∧
      commandParsef trailer.length (format.paramNames.map Param.type)
          (command ++ following ++ trailer) =
        .ok (arguments.map HostArgument.received, following ++ trailer)) ∧
    (∀ value : Int, -(2 ^ 31) ≤ value → value < 2 ^ 32 → ∀ rest,
      parseInt (msgblockEncodeInt (UInt32.ofInt value) ++ rest) =
          some (UInt32.ofInt value, rest) ∧
        parseInt (ptEncode value ++ rest) = some (UInt32.ofInt value, rest) ∧
        msgblockParseInt (encodeInt (UInt32.ofInt value) ++ rest) =
          some (UInt32.ofInt value, rest)) ∧
    ∃ payload msglen, commandEncodef ce sent = some (payload, msglen) ∧
      msglen = (addFrame seq payload).length ∧
      format.parse (addFrame seq payload) messageHeaderSize =
        some (reportedValues format.paramNames sent,
          (addFrame seq payload).length - messageTrailerSize) := by
  refine ⟨?_, ?_, ?_⟩
  · refine ⟨arguments.flatMap HostArgument.encoded, ?_, ?_⟩
    · rw [MessageFormat.encodeByName, encodeNamed_eq given]
      rfl
    · have inRange : Forall₂ (fun type argument => HostArgument.InRange type argument)
          (format.paramNames.map Param.type) arguments := by
        rw [forall₂_map_left_iff]
        exact given.imp fun _ _ parameter => parameter.1
      rw [append_assoc, commandParsef_encoded inRange]
      rw [length_append]
      exact Nat.le_add_left _ _
  · intro value _ _ rest
    exact ⟨parseInt_encodeInt _ rest, parseInt_ptEncode value rest, parseInt_encodeInt _ rest⟩
  · refine ⟨encodeMsgid ce.encodedMsgid ++ sent.flatMap Argument.encoded, _, ?_,
      (length_addFrame _ _).symm, ?_⟩
    · rw [commandEncodef, if_neg (Nat.not_le.mpr notAck), encodeParams_eq whole]
      simp only [Option.map_some, messageHeaderSize, messageTrailerSize, messageMin]
      congr 2
      omega
    have small : ce.capacity ≤ 255 := by
      have bound := ce.maxSize.toNat_lt
      unfold CommandEncoder.capacity
      omega
    rw [sameTypes] at whole
    rw [sameMsgid]
    exact parse_addFrame (readable_of_untruncated whole small) seq

def sampleFormat : MessageFormat :=
  ⟨[5], [⟨"clock", .uint32⟩, ⟨"offset", .int16⟩, ⟨"data", .buffer⟩]⟩

theorem codec_round_trip_sample :
    (∃ command, sampleFormat.encodeByName
        [("clock", .text (stdToString 4294967295)), ("offset", .text (stdToString (-33))),
          ("data", .data [1, 2, 3])] = some (sampleFormat.msgidBytes ++ command) ∧
      commandParsef 3 [.uint32, .int16, .buffer] (command ++ [] ++ [0, 0, 0x7e]) =
        .ok ([.word 4294967295, .word (-33), .buffer [1, 2, 3]], [0, 0, 0x7e])) ∧
    ∃ payload msglen,
      commandEncodef ⟨5, 30, [.uint32, .int16, .buffer]⟩
        [.word 4294967295, .word (-33), .buffer [1, 2, 3]] = some (payload, msglen) ∧
      ∃ out, sampleFormat.parse (addFrame 0x10 payload) messageHeaderSize =
          some (out, (addFrame 0x10 payload).length - messageTrailerSize) ∧
        out "clock" = some (.text (stdToString 4294967295)) ∧
        out "offset" = some (.text (stdToString (-33))) ∧
        out "data" = some (.data [1, 2, 3]) := by
  have trip := codec_round_trip sampleFormat
    [("clock", .text (stdToString 4294967295)), ("offset", .text (stdToString (-33))),
      ("data", .data [1, 2, 3])]
    [.integer 4294967295, .integer (-33), .buffer [1, 2, 3]]
    (.cons ⟨⟨rfl, by decide, by decide⟩, rfl⟩
      (.cons ⟨⟨rfl, by decide, by decide⟩, rfl⟩ (.cons ⟨⟨rfl, by decide⟩, rfl⟩ .nil)))
    [] [0, 0, 0x7e] ⟨5, 30, [.uint32, .int16, .buffer]⟩
    [.word 4294967295, .word (-33), .buffer [1, 2, 3]] 0x10 rfl rfl (by decide) (by decide)
  rcases trip with ⟨down, -, payload, msglen, encoded, -, parsed⟩
  exact ⟨down, payload, msglen, encoded, _, parsed, rfl, rfl, rfl⟩

end CentauriCarbon.Codec
