import CentauriCarbon.Codec.MessageFormat
import CentauriCarbon.Protocol.CommandFindBlock

/-! # Dispatch of the commands of a block

Integers are parsed without a length check: the SYNC byte that ends the block ends them too.
-/

namespace CentauriCarbon.Codec

open List Protocol

variable {Machine : Type}

inductive DispatchFault where
  | shutdown (reason : String)
  | readPastBlock
  | unfinished

/-- A command handler returns, or shuts the micro-controller down for a reason. -/
structure CommandParser (Machine : Type) where
  paramTypes : List ParamType
  inShutdown : Bool
  func : List Argument → Machine → Except String Machine

def commandParseMsgid : List UInt8 → Option (UInt16 × List UInt8)
  | [] => none
  | encodedMsgid :: p =>
    if encodedMsgid &&& 0x80 ≠ 0 then
      match p with
      | [] => none
      | c :: p => some (((encodedMsgid &&& 0x7f).toUInt16 <<< 7) ||| c.toUInt16, p)
    else some (encodedMsgid.toUInt16, p)

variable (commandIndex : List (CommandParser Machine)) (isShutdown : Machine → Bool)
  (reportShutdown : Machine → Machine)

def commandLookupParser (cmdid : UInt16) : Option (CommandParser Machine) :=
  if cmdid = 0 then none else commandIndex[cmdid.toNat]?

/-- The loop of `command_dispatch`, where `p` points to what is left of the block. -/
def dispatchLoop : Nat → List UInt8 → Machine → Except DispatchFault Machine
  | 0, _, _ => .error .unfinished
  | fuel + 1, p, machine =>
    if p.length ≤ messageTrailerSize then .ok machine
    else
      match commandParseMsgid p with
      | none => .error .readPastBlock
      | some (cmdid, p) =>
        match commandLookupParser commandIndex cmdid with
        | none => .error (.shutdown "Invalid command")
        | some cp =>
          match commandParsef messageTrailerSize cp.paramTypes p with
          | .error .commandParserError => .error (.shutdown "Command parser error")
          | .error .readPastBuffer => .error .readPastBlock
          | .ok (args, p) =>
            if isShutdown machine && !cp.inShutdown then
              dispatchLoop fuel p (reportShutdown machine)
            else
              match cp.func args machine with
              | .error reason => .error (.shutdown reason)
              | .ok machine => dispatchLoop fuel p machine

def commandDispatch (block : List UInt8) : Machine → Except DispatchFault Machine :=
  dispatchLoop commandIndex isShutdown reportShutdown block.length (block.drop messageHeaderSize)

def SyncEnded (p : List UInt8) : Prop := ∀ last, p.getLast? = some last → last = messageSync

theorem SyncEnded.suffix (ended : SyncEnded p) (suffix : rest <:+ p) : SyncEnded rest := by
  rcases suffix with ⟨front, rfl⟩
  intro last isLast
  apply ended
  rw [getLast?_append, isLast]
  rfl

theorem SyncEnded.ne_nil (ended : SyncEnded (c :: p)) (high : c &&& 0x80 ≠ 0) : p ≠ [] := by
  rintro rfl
  rw [ended c rfl] at high
  exact high (by decide)

section

variable (ended : SyncEnded p)
include ended

theorem parseIntLoop_suffix (nonempty : p ≠ []) (v : UInt32) :
    ∃ parsed rest, parseIntLoop v p = some (parsed, rest) ∧ rest <:+ p := by
  induction p generalizing v with
  | nil => exact absurd rfl nonempty
  | cons c p induction =>
    unfold parseIntLoop
    split
    next high =>
      rcases induction (ended.suffix (suffix_cons c p)) (ended.ne_nil high) _ with
        ⟨parsed, rest, parsed_eq, suffix⟩
      exact ⟨parsed, rest, parsed_eq, suffix.trans (suffix_cons c p)⟩
    · exact ⟨_, p, rfl, suffix_cons c p⟩

theorem parseInt_suffix (nonempty : p ≠ []) :
    ∃ parsed rest, parseInt p = some (parsed, rest) ∧ rest <:+ p := by
  cases p with
  | nil => exact absurd rfl nonempty
  | cons c p =>
    rw [parseInt]
    split
    next high =>
      rcases parseIntLoop_suffix (ended.suffix (suffix_cons c p)) (ended.ne_nil high) _ with
        ⟨parsed, rest, parsed_eq, suffix⟩
      exact ⟨parsed, rest, parsed_eq, suffix.trans (suffix_cons c p)⟩
    · exact ⟨_, p, rfl, suffix_cons c p⟩

theorem commandParseMsgid_suffix (nonempty : p ≠ []) :
    ∃ cmdid rest, commandParseMsgid p = some (cmdid, rest) ∧ rest <:+ p ∧
      rest.length < p.length := by
  cases p with
  | nil => exact absurd rfl nonempty
  | cons c p =>
    rw [commandParseMsgid.eq_def]
    dsimp only
    split
    next high =>
      cases p with
      | nil => exact absurd rfl (ended.ne_nil high)
      | cons second p =>
        exact ⟨_, p, rfl, suffix_append [c, second] p, by simp only [length_cons]; omega⟩
    · exact ⟨_, p, rfl, suffix_cons c p, by simp⟩

theorem parseParam_suffix (type : ParamType) :
    parseParam messageTrailerSize type p = .error .commandParserError ∨
      ∃ arg rest, parseParam messageTrailerSize type p = .ok (arg, rest) ∧ rest <:+ p := by
  unfold parseParam
  by_cases short : p.length < messageTrailerSize
  · exact .inl (if_pos short)
  have nonempty : p ≠ [] := by
    rintro rfl
    exact short (by decide)
  rw [if_neg short]
  split
  · rcases parseInt_suffix ended nonempty with ⟨parsed, rest, parsed_eq, suffix⟩
    rw [parsed_eq]
    exact .inr ⟨_, rest, rfl, suffix⟩
  split
  · cases p with
    | nil => exact absurd rfl nonempty
    | cons len p =>
      dsimp only
      split
      · exact .inl rfl
      · exact .inr ⟨_, _, rfl, (drop_suffix _ p).trans (suffix_cons len p)⟩
  · exact .inl rfl

theorem commandParsef_suffix (types : List ParamType) :
    commandParsef messageTrailerSize types p = .error .commandParserError ∨
      ∃ args rest, commandParsef messageTrailerSize types p = .ok (args, rest) ∧ rest <:+ p := by
  induction types generalizing p with
  | nil => exact .inr ⟨[], p, rfl, suffix_rfl⟩
  | cons type types induction =>
    rw [commandParsef]
    rcases parseParam_suffix ended type with failed | ⟨arg, next, parsed, suffix⟩
    · rw [failed]
      exact .inl rfl
    rw [parsed]
    rcases induction (ended.suffix suffix) with failed | ⟨args, rest, others, within⟩
    · exact .inl (by simp [failed, bind, Except.bind])
    · exact .inr ⟨arg :: args, rest, by simp [others, bind, Except.bind, pure, Except.pure],
        within.trans suffix⟩

end

variable {commandIndex isShutdown reportShutdown}

theorem dispatchLoop_error (ended : SyncEnded p) (enough : p.length < fuel)
    (failed : dispatchLoop commandIndex isShutdown reportShutdown fuel p machine = .error fault) :
    ∃ reason, fault = .shutdown reason := by
  induction fuel generalizing p machine with
  | zero => omega
  | succ fuel induction =>
    rw [dispatchLoop] at failed
    split at failed
    · cases failed
    next more =>
      have nonempty : p ≠ [] := by
        rintro rfl
        exact more (by decide)
      rcases commandParseMsgid_suffix ended nonempty with
        ⟨cmdid, rest, parsed, suffix, shorter⟩
      rw [parsed] at failed
      dsimp only at failed
      cases lookup : commandLookupParser commandIndex cmdid with
      | none =>
        rw [lookup] at failed
        cases failed
        exact ⟨_, rfl⟩
      | some cp =>
        rw [lookup] at failed
        dsimp only at failed
        rcases commandParsef_suffix (ended.suffix suffix) cp.paramTypes with
          error | ⟨args, rest, parsed, within⟩
        · rw [error] at failed
          cases failed
          exact ⟨_, rfl⟩
        have restEnded := ended.suffix (within.trans suffix)
        have restEnough : rest.length < fuel := by
          have := within.length_le
          omega
        rw [parsed] at failed
        dsimp only at failed
        split at failed
        · exact induction restEnded restEnough failed
        split at failed
        · cases failed
          exact ⟨_, rfl⟩
        · exact induction restEnded restEnough failed

theorem found_syncEnded (found : (commandFindBlock state buf).1 = .found msglen) :
    (buf.take msglen).length = msglen ∧ messageMin ≤ msglen ∧ SyncEnded (buf.take msglen) := by
  by_cases empty : buf = []
  · rw [empty, commandFindBlock, if_neg (by simp), if_pos (by decide)] at found
    cases found
  cases needSync : state.needSync with
  | true =>
    rcases findBlockNeedSync_discards buf needSync with ⟨nak, discarded, -⟩
    rw [commandFindBlock_hunting empty needSync, discarded] at found
    cases found
  | false =>
    rw [commandFindBlock_synced needSync] at found
    cases verdict : frameAt buf with
    | incomplete =>
      rw [verdict] at found
      cases found
    | invalid =>
      rcases findBlockError_discards needSync empty with ⟨nak, discarded, -⟩
      rw [verdict] at found
      dsimp only at found
      rw [discarded] at found
      cases found
    | valid length =>
      have popped := (checkSequence_spec state buf).2.1
      rw [verdict] at found
      dsimp only at found
      rw [found] at popped
      rcases frameAt_eq_valid_iff.mp verdict with ⟨⟨low, -⟩, ⟨sync, -⟩, rfl, fits⟩
      change msglen = frameLength buf at popped
      subst popped
      refine ⟨length_take_of_le fits, low, fun last isLast => ?_⟩
      have within : frameLength buf - 1 < buf.length := by
        unfold messageMin at low
        omega
      rw [getLast?_take, if_neg (by unfold messageMin at low; omega),
        getElem?_eq_getElem within] at isLast
      rw [messageTrailerSync, getD_eq_getElem _ _ within] at sync
      rw [← sync]
      exact (Option.some.inj isLast).symm

/-- A block that `command_find_block` accepts is dispatched to its end or until a shutdown, and
no byte behind it is read. -/
theorem dispatch_within_block {state : FindBlockState} {buf : List UInt8} {msglen : Nat}
    (found : (commandFindBlock state buf).1 = .found msglen)
    (commandIndex : List (CommandParser Machine)) (isShutdown : Machine → Bool)
    (reportShutdown : Machine → Machine) (machine : Machine) :
    let outcome := commandDispatch commandIndex isShutdown reportShutdown (buf.take msglen) machine
    (buf.take msglen).length = msglen ∧
      ((∃ final, outcome = .ok final) ∨ ∃ reason, outcome = .error (.shutdown reason)) := by
  intro outcome
  rcases found_syncEnded found with ⟨length, low, ended⟩
  refine ⟨length, ?_⟩
  cases result : outcome with
  | ok final => exact .inl ⟨final, rfl⟩
  | error fault =>
    have enough : ((buf.take msglen).drop messageHeaderSize).length < (buf.take msglen).length := by
      rw [length_drop, length]
      unfold messageMin messageHeaderSize at *
      omega
    rcases dispatchLoop_error (ended.suffix (drop_suffix _ _)) enough result with ⟨reason, rfl⟩
    exact .inr ⟨reason, rfl⟩

/-- The integer of the command reaches through the check sum to the SYNC byte. -/
def longIntegerBlock : List UInt8 := [7, 0x10, 1, 0x89, 0xd1, 0x84, 0x7e]

def storingIndex : List (CommandParser (List Argument)) :=
  [⟨[], false, fun _ => .ok⟩, ⟨[.uint32], false, fun args stored => .ok (stored ++ args)⟩]

theorem dispatch_within_longIntegerBlock :
    let outcome := commandDispatch storingIndex (fun _ => false) id (longIntegerBlock.take 7) []
    (commandFindBlock .initial longIntegerBlock).1 = .found 7 ∧
      (longIntegerBlock.take 7).length = 7 ∧
        ((∃ final, outcome = .ok final) ∨ ∃ reason, outcome = .error (.shutdown reason)) := by
  have found : (commandFindBlock .initial longIntegerBlock).1 = .found 7 := by decide +kernel
  exact ⟨found, dispatch_within_block found storingIndex (fun _ => false) id []⟩

/-! ## Blocks of the host -/

/-- The place of a message in `command_index`: its number as one or two groups of seven bits. -/
def encodedMsgid (msgid : Int) : UInt16 :=
  if -0x20 ≤ msgid ∧ msgid < 0x60 then .ofNat (msgid % 128).toNat else .ofNat (msgid % 16384).toNat

theorem commandParseMsgid_one (low_lt : low < 128) (rest : List UInt8) :
    commandParseMsgid (UInt8.ofNat low :: rest) = some (.ofNat low, rest) := by
  have byte : (UInt8.ofNat low).toNat = low := by
    rw [UInt8.toNat_ofNat']
    omega
  have lastByte : ¬UInt8.ofNat low &&& 0x80 ≠ 0 := by
    rw [continuation_iff, byte]
    omega
  rw [commandParseMsgid.eq_def]
  dsimp only
  rw [if_neg lastByte]
  congr 2
  apply UInt16.toNat_inj.mp
  rw [UInt8.toNat_toUInt16, byte, UInt16.toNat_ofNat']
  omega

theorem commandParseMsgid_two (high_lt : high < 128) (low_lt : low < 128) (rest : List UInt8) :
    commandParseMsgid (UInt8.ofNat (high ||| 0x80) :: UInt8.ofNat low :: rest) =
      some (.ofNat (128 * high + low), rest) := by
  have first : (UInt8.ofNat (high ||| 0x80)).toNat = high + 128 := by
    rw [or_continuation high_lt, UInt8.toNat_ofNat']
    omega
  have second : (UInt8.ofNat low).toNat = low := by
    rw [UInt8.toNat_ofNat']
    omega
  have continues : UInt8.ofNat (high ||| 0x80) &&& 0x80 ≠ 0 := by
    rw [continuation_iff, first]
    omega
  have shifted : high <<< 7 % 2 ^ 16 = 2 ^ 7 * high := by
    omega
  rw [commandParseMsgid.eq_def]
  dsimp only
  rw [if_pos continues]
  congr 2
  apply UInt16.toNat_inj.mp
  rw [UInt16.toNat_or, UInt8.toNat_toUInt16, second, UInt16.toNat_ofNat']
  change (UInt8.toUInt16 _).toNat <<< 7 % 2 ^ 16 ||| low = _
  rw [UInt8.toNat_toUInt16, and_low_toNat, first, Nat.add_mod_right, Nat.mod_eq_of_lt high_lt,
    shifted, ← Nat.two_pow_add_eq_or_of_lt low_lt]
  omega

/-- The number that `PT_base::encode` writes for the host is read as the place in the index. -/
theorem commandParseMsgid_ptEncode (inRange : -0x1000 ≤ msgid ∧ msgid < 0x3000)
    (rest : List UInt8) :
    commandParseMsgid (ptEncode msgid ++ rest) = some (encodedMsgid msgid, rest) := by
  have low_lt : (msgid % 128).toNat < 128 := by omega
  have high_lt : ((msgid >>> (7 : Nat)) % 128).toNat < 128 := by omega
  rw [ptEncode, if_neg (by omega), if_neg (by omega), if_neg (by omega), encodedMsgid]
  by_cases short : -0x20 ≤ msgid ∧ msgid < 0x60
  · rw [if_neg (by omega), if_pos short]
    exact commandParseMsgid_one low_lt rest
  · rw [if_pos (by omega), if_neg short]
    refine (commandParseMsgid_two high_lt low_lt rest).trans ?_
    have groups : msgid / 128 / 128 = msgid / 16384 := Int.ediv_ediv_of_nonneg (by decide)
    have joined : 128 * ((msgid >>> (7 : Nat)) % 128).toNat + (msgid % 128).toNat =
        (msgid % 16384).toNat := by
      rw [Int.shiftRight_eq_div_pow]
      omega
    rw [joined]

/-- A command that the host encodes by name and that the micro-controller has an entry for, with
the number and the parameters of its message. -/
structure HostCommand (commandIndex : List (CommandParser Machine)) where
  msgid : Int
  paramNames : List Param
  params : List (String × Value)
  arguments : List HostArgument
  parser : CommandParser Machine
  inRange : -0x1000 ≤ msgid ∧ msgid < 0x3000
  given : Forall₂ (fun param argument =>
    argument.InRange param.type ∧ params.lookup param.name = some argument.value)
    paramNames arguments
  known : commandLookupParser commandIndex (encodedMsgid msgid) = some parser
  types : parser.paramTypes = paramNames.map Param.type

namespace HostCommand

/-- The format that the host makes from the dictionary of the micro-controller. -/
def format (command : HostCommand commandIndex) : MessageFormat :=
  ⟨ptEncode command.msgid, command.paramNames⟩

def bytes (command : HostCommand commandIndex) : List UInt8 :=
  (command.format.encodeByName command.params).getD []

/-- What the command means: its handler runs with the arguments that were given. -/
def execute (isShutdown : Machine → Bool) (reportShutdown : Machine → Machine) (machine : Machine)
    (command : HostCommand commandIndex) : Except DispatchFault Machine :=
  if isShutdown machine && !command.parser.inShutdown then .ok (reportShutdown machine)
  else (command.parser.func (command.arguments.map HostArgument.received) machine).mapError
    .shutdown

theorem bytes_eq (command : HostCommand commandIndex) : command.bytes =
    ptEncode command.msgid ++ command.arguments.flatMap HostArgument.encoded := by
  rw [bytes, MessageFormat.encodeByName, format, encodeNamed_eq command.given]
  rfl

end HostCommand

theorem dispatchLoop_packed (commands : List (HostCommand commandIndex))
    (enough : (commands.flatMap HostCommand.bytes).length < fuel)
    (ends : trailer.length = messageTrailerSize) (machine : Machine) :
    dispatchLoop commandIndex isShutdown reportShutdown fuel
        (commands.flatMap HostCommand.bytes ++ trailer) machine =
      commands.foldlM (HostCommand.execute isShutdown reportShutdown) machine := by
  induction fuel generalizing commands machine with
  | zero => omega
  | succ fuel induction =>
    cases commands with
    | nil => exact if_pos ends.le
    | cons command commands =>
      have positive : 0 < (ptEncode command.msgid).length := by
        rw [ptEncode, length_append]
        exact Nat.lt_add_left _ one_pos
      have inRange : Forall₂ (fun type argument => HostArgument.InRange type argument)
          command.parser.paramTypes command.arguments := by
        rw [command.types, forall₂_map_left_iff]
        exact command.given.imp fun _ _ parameter => parameter.1
      rw [flatMap_cons, command.bytes_eq] at enough ⊢
      simp only [length_append] at enough
      rw [append_assoc, append_assoc, dispatchLoop, if_neg,
        commandParseMsgid_ptEncode command.inRange]
      · dsimp only
        rw [command.known]
        dsimp only
        rw [commandParsef_encoded inRange, foldlM_cons, HostCommand.execute]
        · dsimp only
          have rest := induction commands (by omega)
          split
          · exact rest _
          · cases command.parser.func (command.arguments.map HostArgument.received) machine with
            | error reason => rfl
            | ok next => exact rest next
        · rw [length_append]
          omega
      · simp only [length_append]
        omega

/-- A block is dispatched as the commands that the host has put into it. -/
theorem packed_commands_executed (commands : List (HostCommand commandIndex)) (sequence : UInt8)
    (isShutdown : Machine → Bool) (reportShutdown : Machine → Machine) (machine : Machine) :
    commandDispatch commandIndex isShutdown reportShutdown
        (addFrame sequence (commands.flatMap HostCommand.bytes)) machine =
      commands.foldlM (HostCommand.execute isShutdown reportShutdown) machine := by
  rcases drop_addFrame sequence (commands.flatMap HostCommand.bytes) with ⟨trailer, payload⟩
  have length := congrArg length payload
  rw [length_drop, length_addFrame, length_append] at length
  unfold messageMin messageHeaderSize at length
  rw [commandDispatch, payload, length_addFrame]
  exact dispatchLoop_packed commands (Nat.lt_add_of_pos_right (by decide))
    (by unfold messageTrailerSize; omega) machine

/-- A command that `storingIndex` has an entry for, with one integer. -/
def storeCommand (value : Int) (inRange : -2 ^ 31 ≤ value ∧ value < 2 ^ 32) :
    HostCommand storingIndex where
  msgid := 1
  paramNames := [⟨"value", .uint32⟩]
  params := [("value", .text (stdToString value))]
  arguments := [.integer value]
  parser := ⟨[.uint32], false, fun args stored => .ok (stored ++ args)⟩
  inRange := by decide
  given := .cons ⟨⟨rfl, inRange⟩, rfl⟩ .nil
  known := rfl
  types := rfl

theorem packed_stores_executed :
    let commands := [storeCommand 5 (by decide), storeCommand (-200) (by decide)]
    commandDispatch storingIndex (fun _ => false) id
      (addFrame 0x11 (commands.flatMap HostCommand.bytes)) [] = .ok [.word 5, .word (-200)] :=
  packed_commands_executed _ 0x11 (fun _ => false) id []

end CentauriCarbon.Codec
