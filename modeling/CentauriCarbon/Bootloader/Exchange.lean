import Mathlib.Data.List.Infix
import CentauriCarbon.Bootloader.SerialBootloader

/-! # A request and its answer

When the host finds the answer to a request, the board has served exactly this request, and what
follows the request is noise to it.
-/

namespace CentauriCarbon.Bootloader

open List BootDevice ComParser Com RingBuffer

structure Settled (link : Link) (device : BootDevice) : Prop where
  delivered : link.toMcu = []
  parsed : link.com.rb.used = 0
  isA5 : link.com.parser.sta = .a5
  isDevice : link.com.device = device
  allRead : link.read = device.sent.length

structure Taken (board : Board) (start : ComParser × BootDevice) (request : List UInt8)
    (count : Nat) (link : Link) : Prop where
  count_le : count ≤ request.length
  underWay : link.com.rb.contents ++ link.toMcu = request.drop count
  fed : (link.com.parser, link.com.device) =
    feed (bootloaderComHandle board) start (request.take count)

section Steps

variable {request : List UInt8} {count : Nat}

theorem Taken.deliver (taken : Taken board start request count link) (bytes : Nat) :
    Taken board start request count (link.deliver bytes) := by
  rw [Link.deliver]
  split
  next fits =>
    refine ⟨taken.count_le, ?_, taken.fed⟩
    rw [contents_commit fits, append_assoc, take_append_drop]
    exact taken.underWay
  · exact taken

theorem Taken.task (taken : Taken board start request count link) (initially : start.1.Consistent) :
    ∃ more, Taken board start request (count + more) (link.task board) := by
  rcases fed_task initially taken.fed with ⟨front, contents, fed⟩
  have count_le := taken.count_le
  have underWay := taken.underWay
  rw [contents, append_assoc] at underWay
  have length := congrArg length underWay
  rw [length_append, length_drop] at length
  refine ⟨front.length, by omega, ?_, ?_⟩
  · rw [← drop_drop, ← underWay, drop_left]
    rfl
  · rw [take_add, ← underWay, take_left]
    exact fed

end Steps

/-! ## The board's part -/

section Serving

variable {Device : Type} (handle : ComHandle Device) {parser : ComParser} {cmd : UInt8}
  {payload garbage : List UInt8}

/-- A request is served when it is complete, and what follows it changes nothing. -/
theorem feed_request (isA5 : parser.sta = .a5) (small : payload.length ≤ comMaxPayload)
    (noPair : ¬[0xa5, 0x5a] <:+: garbage) (device : Device) (count : Nat) :
    (feed handle (parser, device)
        ((bootloaderPackageData cmd payload ++ garbage).take count)).2 =
      if count < (bootloaderPackageData cmd payload).length then device
      else (handle device (dueCall (received parser cmd payload))).1 := by
  split
  next incomplete =>
    rw [take_append_of_le_length (le_of_lt incomplete)]
    exact feed_package_take handle isA5 small device incomplete
  next complete =>
    have noPairBefore : ¬[0xa5, 0x5a] <:+: garbage.take
        (count - (bootloaderPackageData cmd payload).length) :=
      fun pair => noPair <| pair.trans <| IsPrefix.isInfix <| take_prefix _ _
    rw [take_append, take_of_length_le (Nat.le_of_not_lt complete), feed_append,
      feed_package handle isA5 small, feed_noise handle noPairBefore rfl]

end Serving

theorem host_of_answer {cmd : UInt8} {ack received : List UInt8}
    (small : ack.length ≤ comMaxPayload) (part : received <+: bootloaderPackageData cmd ack) :
    (feed (ackHandle cmd ack.length) (initial, none) received).2 =
      if received = bootloaderPackageData cmd ack then some ack else none := by
  rcases part with ⟨rest, isAnswer⟩
  split
  next whole =>
    rw [whole, feed_package _ rfl small]
    simp only [ackHandle, dueCall, CentauriCarbon.Bootloader.received, if_true, readAt_writeAt]
  next notWhole =>
    have shorter : received.length < (bootloaderPackageData cmd ack).length := by
      rw [← isAnswer, length_append]
      have some : rest ≠ [] := by
        rintro rfl
        rw [append_nil] at isAnswer
        exact notWhole isAnswer
      have positive := length_pos_iff.mpr some
      omega
    have isTake : received = (bootloaderPackageData cmd ack).take received.length := by
      rw [← isAnswer, take_left']
      rfl
    rw [isTake]
    exact feed_package_take _ rfl small none shorter

/-! ## The exchange -/

structure Request (board : Board) (parser : ComParser) (device served : BootDevice) (cmd : UInt8)
    (payload garbage ack : List UInt8) : Prop where
  isA5 : parser.sta = .a5
  small : payload.length ≤ comMaxPayload
  noPair : ¬[0xa5, 0x5a] <:+: garbage
  serves : (bootloaderComHandle board device (dueCall (received parser cmd payload))).1 = served
  answers : served.sent = device.sent ++ bootloaderPackageData cmd ack
  ackSmall : ack.length ≤ comMaxPayload

def answerSoFar (cmd : UInt8) (payload ack : List UInt8) (count : Nat) : List UInt8 :=
  if count < (bootloaderPackageData cmd payload).length then [] else bootloaderPackageData cmd ack

theorem answerSoFar_grows (cmd : UInt8) (payload ack : List UInt8) (count more : Nat) :
    answerSoFar cmd payload ack count <+: answerSoFar cmd payload ack (count + more) := by
  unfold answerSoFar
  split
  · exact nil_prefix
  next complete =>
    rw [if_neg (by omega)]

def Reading (device : BootDevice) (cmd : UInt8) (payload ack : List UInt8) (count : Nat)
    (link : Link) (host : ComParser × Option (List UInt8)) : Prop :=
  ∃ received, received <+: answerSoFar cmd payload ack count ∧
    link.read = device.sent.length + received.length ∧
    host = feed (ackHandle cmd ack.length) (initial, none) received

section Exchange

variable {board : Board} {parser : ComParser} {device served : BootDevice} {cmd : UInt8}
  {payload garbage ack : List UInt8} {count : Nat} {link : Link}

theorem Link.deliver_keeps (link : Link) (bytes : Nat) :
    (link.deliver bytes).read = link.read ∧ (link.deliver bytes).written = link.written := by
  rw [Link.deliver]
  split
  · exact ⟨rfl, rfl⟩
  · exact ⟨rfl, rfl⟩

section

variable (request : Request board parser device served cmd payload garbage ack)
  (taken : Taken board (parser, device) (bootloaderPackageData cmd payload ++ garbage) count link)
include request taken

theorem Request.device_of_taken : link.com.device =
      if count < (bootloaderPackageData cmd payload).length then device else served := by
  have isDevice : link.com.device = _ := congrArg Prod.snd taken.fed
  rw [isDevice, feed_request _ request.isA5 request.small request.noPair, request.serves]

theorem Request.sent_of_taken :
    link.com.device.sent = device.sent ++ answerSoFar cmd payload ack count := by
  rw [request.device_of_taken taken, answerSoFar]
  split
  · rw [append_nil]
  · exact request.answers

/-- When the host finds an answer, it is the answer to this request, which the board has served. -/
theorem Request.waitAck_spec {next : Link}
    (reading : Reading device cmd payload ack count link host)
    (found : waitAck board cmd ack.length events link host = some (next, answer)) :
    answer = ack ∧ next.written = link.written ∧ next.read = served.sent.length ∧
      ∃ count, (bootloaderPackageData cmd payload).length ≤ count ∧
        Taken board (parser, device) (bootloaderPackageData cmd payload ++ garbage) count next := by
  have initially : (parser, device).1.Consistent := by
    apply consistent_of_ne
    simp [request.isA5]
  induction events generalizing link host count with
  | nil => cases found
  | cons event events induction =>
    rcases reading with ⟨received, part, isRead, isHost⟩
    cases event with
    | deliver bytes =>
      rcases link.deliver_keeps bytes with ⟨sameRead, sameWritten⟩
      have later := induction (taken.deliver bytes)
        ⟨received, part, sameRead.trans isRead, isHost⟩ found
      rw [sameWritten] at later
      exact later
    | task =>
      rcases taken.task initially with ⟨more, takenMore⟩
      have partMore := part.trans (answerSoFar_grows cmd payload ack count more)
      have readingMore : Reading device cmd payload ack (count + more) (link.task board)
          host := ⟨received, partMore, isRead, isHost⟩
      have later := induction takenMore readingMore found
      exact later
    | read bytes =>
      have partAfter : received ++ link.incoming bytes <+: answerSoFar cmd payload ack count := by
        rcases part with ⟨rest, isAnswer⟩
        have next : link.incoming bytes = rest.take (min bytes 1024) := by
          rw [Link.incoming, request.sent_of_taken taken, isRead, ← isAnswer,
            drop_length_add_append, drop_left' rfl]
        rw [next, ← isAnswer]
        exact (prefix_append_right_inj _).mpr <| take_prefix _ _
      have consistent : host.1.Consistent := by
        rw [isHost]
        exact consistent_feed _ consistent_initial
      have parsed : parse (ackHandle cmd ack.length) (2 * (link.incoming bytes).length + 1)
          host.1 host.2 (link.incoming bytes) =
            feed (ackHandle cmd ack.length) (initial, none) (received ++ link.incoming bytes) := by
        rw [parse_eq_feed _ consistent (by split <;> omega), feed_append, ← isHost]
      have readAfter : link.read + (link.incoming bytes).length =
          device.sent.length + (received ++ link.incoming bytes).length := by
        rw [isRead, length_append, add_assoc]
      rw [waitAck, parsed] at found
      split at found
      next other isOther =>
        cases found
        rw [answerSoFar] at partAfter
        split at partAfter
        · rw [prefix_nil.mp partAfter] at isOther
          cases isOther
        next complete =>
          rw [host_of_answer request.ackSmall partAfter, Option.ite_none_right_eq_some] at isOther
          rcases isOther with ⟨whole, ⟨⟩⟩
          have allRead : link.read + (link.incoming bytes).length = served.sent.length := by
            rw [readAfter, whole, request.answers, length_append]
          exact ⟨rfl, rfl, allRead, count, Nat.le_of_not_lt complete, taken.count_le,
            taken.underWay, taken.fed⟩
      · let later : Link := { link with read := link.read + (link.incoming bytes).length }
        have takenLater : Taken board (parser, device)
            (bootloaderPackageData cmd payload ++ garbage) count later := { taken with }
        have readingLater : Reading device cmd payload ack count later
            (feed (ackHandle cmd ack.length) (initial, none) (received ++ link.incoming bytes)) :=
          ⟨received ++ link.incoming bytes, partAfter, readAfter, rfl⟩
        have afterwards := induction takenLater readingLater found
        exact afterwards

end

theorem Request.sendAndWaitAck_spec {events : List LinkEvent} {next : Link} {answer : List UInt8}
    (settled : Settled link device)
    (request : Request board link.com.parser device served cmd payload garbage ack)
    (found : sendAndWaitAck board link (bootloaderPackageData cmd payload ++ garbage) cmd
      ack.length events = some (next, answer)) :
    answer = ack ∧ next.com.device = served ∧
      next.written = link.written ++ (bootloaderPackageData cmd payload ++ garbage) ∧
      (garbage = [] → Settled next served) := by
  have taken : Taken board (link.com.parser, device)
      (bootloaderPackageData cmd payload ++ garbage) 0
      (link.write (bootloaderPackageData cmd payload ++ garbage)) := by
    have none : link.com.rb.contents = [] := by
      apply length_eq_zero_iff.mp
      rw [length_contents]
      exact settled.parsed
    refine ⟨Nat.zero_le _, ?_, ?_⟩
    · simp only [Link.write, none, settled.delivered, nil_append, drop_zero]
    · rw [Link.write, take_zero, feed_nil, settled.isDevice]
  have reading : Reading device cmd payload ack 0
      (link.write (bootloaderPackageData cmd payload ++ garbage)) (initial, none) :=
    ⟨[], nil_prefix, settled.allRead, rfl⟩
  rcases request.waitAck_spec taken reading found with
    ⟨isAck, written, allRead, count, complete, takenAll⟩
  have isDevice : next.com.device = served := by
    rw [request.device_of_taken takenAll, if_neg (Nat.not_lt_of_le complete)]
  refine ⟨isAck, isDevice, written, ?_⟩
  rintro rfl
  have none : next.com.rb.contents ++ next.toMcu = [] := by
    rw [takenAll.underWay, append_nil, drop_of_length_le complete]
  have isParser : next.com.parser = _ := congrArg Prod.fst takenAll.fed
  rcases append_eq_nil_iff.mp none with ⟨noContents, delivered⟩
  refine ⟨delivered, ?_, ?_, isDevice, allRead⟩
  · rw [← length_contents, noContents, length_nil]
  · rw [isParser, append_nil, take_of_length_le complete, feed_package _ request.isA5 request.small]

end Exchange

end CentauriCarbon.Bootloader
