import CentauriCarbon.Bootloader.ComTask
import CentauriCarbon.Bootloader.PackageStream
import CentauriCarbon.Foundation.EventRun

/-! # Reception of packages

Chunks of a stream of packages are committed to the ring buffer and the task runs at any times.
All bytes reach the receiver in order, except for a few that the last run may leave behind.
-/

namespace CentauriCarbon.Bootloader

open List ComParser RingBuffer Com

inductive ComEvent where
  | commit (chunk : List UInt8)
  | task

def ComEvent.bytes : ComEvent → List UInt8
  | .commit chunk => chunk
  | .task => []

def committed (events : List ComEvent) : List UInt8 := events.flatMap ComEvent.bytes

section Step

variable {Device : Type} (handle : ComHandle Device)

/-- A chunk comes only if the ring buffer has room for it. -/
def comStep (com : Com Device) : ComEvent → Option (Com Device)
  | .commit chunk =>
    if com.rb.used + chunk.length ≤ com.rb.size.toNat then some (com.bootloaderCommitData chunk)
    else none
  | .task => some (com.bootloaderComHandlerTask handle)

theorem comRb_used : comRb.used = 0 := by decide

def startCom (device : Device) : Com Device := ⟨comRb, initial, false, device⟩

def Follows (start : ComParser × Device) (sent : List UInt8) (com : Com Device) : Prop :=
  ∃ taken, sent = taken ++ com.rb.contents ∧ (com.parser, com.device) = feed handle start taken

theorem consistent_of_ne {parser : ComParser} (notData : parser.sta ≠ .data) : parser.Consistent :=
  fun isData => absurd isData notData

variable {handle} {start : ComParser × Device} {sent : List UInt8} {com next : Com Device}

theorem consistent_of_fed (initially : start.1.Consistent)
    (fed : (com.parser, com.device) = feed handle start taken) : com.parser.Consistent := by
  have parser : com.parser = (feed handle start taken).1 := congrArg Prod.fst fed
  rw [parser]
  exact consistent_feed handle initially

theorem Follows.consistent (follows : Follows handle start sent com)
    (initially : start.1.Consistent) : com.parser.Consistent := by
  rcases follows with ⟨taken, -, fed⟩
  exact consistent_of_fed initially fed

theorem contents_commit (fits : com.rb.used + chunk.length ≤ com.rb.size.toNat) :
    (com.bootloaderCommitData chunk).rb.contents = com.rb.contents ++ chunk := by
  have bound := com.rb.size_le
  have length : chunk.length = (UInt32.ofNat chunk.length).toNat := by
    rw [UInt32.toNat_ofNat']
    omega
  exact contents_ringbufferPut length (length ▸ fits)

/-- The task feeds the receiver with the first bytes of the ring buffer. -/
theorem fed_task (initially : start.1.Consistent)
    (fed : (com.parser, com.device) = feed handle start taken) :
    ∃ front, com.rb.contents = front ++ (com.bootloaderComHandlerTask handle).rb.contents ∧
      ((com.bootloaderComHandlerTask handle).parser,
        (com.bootloaderComHandlerTask handle).device) = feed handle start (taken ++ front) := by
  by_cases woken : com.wake
  · rcases bootloaderComHandlerTask_spec handle (consistent_of_fed initially fed) woken with
      ⟨contents, parser, device⟩
    refine ⟨com.rb.contents.take (com.rb.used - leftover com.rb.used), ?_, ?_⟩
    · rw [contents, take_append_drop]
    · rw [feed_append, ← fed, parser, device]
  · rw [bootloaderComHandlerTask, if_neg woken]
    refine ⟨[], rfl, ?_⟩
    rw [append_nil]
    exact fed

theorem follows_of_empty (empty : com.rb.used = 0) :
    Follows handle (com.parser, com.device) [] com := by
  have none : com.rb.contents = [] := by
    apply length_eq_zero_iff.mp
    rw [length_contents]
    exact empty
  refine ⟨[], ?_, rfl⟩
  rw [none, nil_append]

section

variable (follows : Follows handle start sent com)
include follows

theorem Follows.commit {chunk : List UInt8}
    (fits : com.rb.used + chunk.length ≤ com.rb.size.toNat) :
    Follows handle start (sent ++ chunk) (com.bootloaderCommitData chunk) := by
  rcases follows with ⟨taken, isSent, fed⟩
  refine ⟨taken, ?_, fed⟩
  rw [isSent, contents_commit fits, append_assoc]

theorem Follows.task (initially : start.1.Consistent) :
    Follows handle start sent (com.bootloaderComHandlerTask handle) := by
  rcases follows with ⟨taken, isSent, fed⟩
  rcases fed_task initially fed with ⟨front, contents, later⟩
  refine ⟨taken ++ front, ?_, later⟩
  rw [isSent, contents, append_assoc]

theorem Follows.step (initially : start.1.Consistent)
    (stepped : comStep handle com event = some next) :
    Follows handle start (sent ++ event.bytes) next := by
  cases event with
  | commit chunk =>
    rcases Option.ite_none_right_eq_some.mp stepped with ⟨fits, ⟨⟩⟩
    exact follows.commit fits
  | task =>
    cases stepped
    rw [ComEvent.bytes, append_nil]
    exact follows.task initially

theorem Follows.run (initially : start.1.Consistent)
    (ran : runEvents (comStep handle) com events = some next) :
    Follows handle start (sent ++ committed events) next := by
  induction events generalizing sent com with
  | nil =>
    cases ran
    rw [committed, flatMap_nil, append_nil]
    exact follows
  | cons event events induction =>
    rcases runEvents_cons_eq_some.mp ran with ⟨middle, stepped, later⟩
    rw [committed, flatMap_cons, ← append_assoc]
    exact induction (follows.step initially stepped) later

end

theorem wake_task (com : Com Device) (consistent : com.parser.Consistent) :
    (com.bootloaderComHandlerTask handle).wake = false := by
  by_cases woken : com.wake
  · let idle : Com Device := { com with wake := false }
    have same : idle.parser.Consistent := consistent
    have enough : idle.rb.used < com.rb.used + 1 := Nat.lt_succ_self _
    rw [bootloaderComHandlerTask, if_pos woken]
    exact (parseLoop_spec handle same enough).2.2.2
  · rw [bootloaderComHandlerTask, if_neg woken]
    exact Bool.eq_false_of_not_eq_true woken

theorem runEvents_replicate_task (asleep : com.wake = false)
    (ran : runEvents (comStep handle) com (replicate runs .task) = some next) : next = com := by
  induction runs with
  | zero =>
    cases ran
    rfl
  | succ runs induction =>
    have idle : com.bootloaderComHandlerTask handle = com := by
      rw [bootloaderComHandlerTask, if_neg (by simp [asleep])]
    rw [replicate_succ, runEvents_cons_eq_some] at ran
    rcases ran with ⟨middle, stepped, later⟩
    rw [comStep, idle] at stepped
    cases stepped
    exact induction later

end Step

section Calls

variable {Device : Type} {handle : ComHandle Device} {device : Device}

theorem consistent_initial : initial.Consistent := by
  apply consistent_of_ne
  decide

theorem calls_of_few (follows : Follows (logging handle) (initial, device, []) sent com)
    (few : com.rb.used < comMinPackageSize) (isA5 : com.parser.sta = .a5) :
    com.device.2 = (feed (logging handle) (initial, device, []) sent).2.2 := by
  have consistent := follows.consistent consistent_initial
  rcases follows with ⟨taken, isSent, fed⟩
  have begun : com.parser.parsed + seen com.parser ≤ com.parser.parsed := by
    rw [seen, isA5]
    exact le_rfl
  rcases feed_calls handle com.device consistent begun with ⟨parsed, more, isMore, within⟩
  rw [isSent, feed_append, ← fed, isMore]
  have none : more = [] := by
    apply eq_nil_iff_forall_not_mem.mpr
    intro call isMember
    have bounds := within call isMember
    rw [parsed, length_contents] at bounds
    unfold comMinPackageSize at few
    omega
  rw [none, append_nil]

theorem calls_of_task (follows : Follows (logging handle) (initial, device, []) sent com)
    (settled : com.wake ≠ true → com.rb.used < comMinPackageSize ∧ com.parser.sta = .a5) :
    (com.bootloaderComHandlerTask (logging handle)).device.2 =
      (feed (logging handle) (initial, device, [])
        (sent.take (sent.length - leftover com.rb.used))).2.2 := by
  by_cases woken : com.wake
  · have task := (bootloaderComHandlerTask_spec (logging handle)
      (follows.consistent consistent_initial) woken).2.2
    have small := leftover_le com.rb.used
    rcases follows with ⟨taken, isSent, fed⟩
    have count : (taken ++ com.rb.contents).length - leftover com.rb.used =
        taken.length + (com.rb.used - leftover com.rb.used) := by
      rw [length_append, length_contents]
      omega
    rw [task, fed, ← feed_append, isSent, count, take_length_add_append]
  · have few := settled woken
    have none : leftover com.rb.used = 0 := by
      have bound := few.1
      rw [leftover, if_neg]
      unfold comMinPackageSize at bound
      omega
    rw [bootloaderComHandlerTask, if_neg woken, none, Nat.sub_zero, take_length]
    exact calls_of_few follows few.1 few.2

/-- A stream of packages is committed in chunks, with runs of the task in between and at least one
after the last chunk. Each package is handled exactly once, in order, exactly if no noise ends in
the middle of a magic pair and what the last run leaves in the ring buffer is noise. -/
theorem packages_received_iff {segments : List Segment} {noise : List UInt8}
    (noPair : ¬[0xa5, 0x5a] <:+: noise) {events : List ComEvent} {last : List UInt8}
    (isStream : committed events ++ last = stream segments ++ noise) {runs : Nat}
    {before after : Com (Device × List HandledCall)}
    (ran : runEvents (comStep (logging handle)) (startCom (device, []))
      (events ++ [.commit last]) = some before)
    (finished : runEvents (comStep (logging handle)) before (replicate (runs + 1) .task) =
      some after) :
    after.device.2 = expected 0 segments ↔
      (∀ segment ∈ segments, trailingMagic segment.noise % 2 = 0) ∧
        leftover before.rb.used ≤ noise.length := by
  have follows : Follows (logging handle) (initial, device, [])
      (committed events ++ last) before := by
    have empty : (startCom (device, ([] : List HandledCall))).rb.used = 0 := comRb_used
    have start : Follows (logging handle) (initial, device, []) []
        (startCom (device, [])) := follows_of_empty empty
    have run := start.run consistent_initial ran
    rw [committed, flatMap_append, flatMap_singleton, nil_append] at run
    exact run
  rw [runEvents_append_eq_bind, Option.bind_eq_some_iff] at ran
  rcases ran with ⟨earlier, -, commit⟩
  rcases runEvents_cons_eq_some.mp commit with ⟨same, stepped, isSame⟩
  cases isSame
  rcases Option.ite_none_right_eq_some.mp stepped with ⟨-, ⟨⟩⟩
  rw [replicate_succ, runEvents_cons_eq_some] at finished
  rcases finished with ⟨first, isFirst, others⟩
  cases isFirst
  have bound : leftover (earlier.bootloaderCommitData last).rb.used ≤
      (committed events ++ last).length := by
    rcases follows with ⟨taken, isSent, -⟩
    apply le_trans (leftover_le _)
    rw [isSent, length_append, length_contents]
    exact Nat.le_add_left _ _
  rw [runEvents_replicate_task (wake_task _ (follows.consistent consistent_initial)) others,
    calls_of_task follows fun asleep => by
      simp only [bootloaderCommitData, ne_eq, decide_eq_true_eq, not_or, not_not, ge_iff_le,
        not_le] at asleep
      exact ⟨asleep.1, asleep.2.1⟩]
  rw [isStream] at bound ⊢
  rw [calls_take_iff handle noPair device]
  apply and_congr_right'
  rw [length_append] at bound ⊢
  omega

end Calls

/-! ## Runs -/

def keepPayload : ComHandle Unit := fun _ call => ((), call.payload)

theorem noPair_of_length_lt {noise : List UInt8} (short : noise.length < 2) :
    ¬[0xa5, 0x5a] <:+: noise :=
  fun pair => Nat.not_lt_of_le pair.length_le short

def behindMagic : Segment where
  noise := [0xa5]
  cmd := 3
  payload := [1, 2]
  noPair := noPair_of_length_lt Nat.one_lt_two
  fits := Nat.le_of_ble_eq_true rfl

def acrossTurns : Segment where
  noise := []
  cmd := 3
  payload := replicate 123 0
  noPair := noPair_of_length_lt Nat.zero_lt_two
  fits := Nat.le_of_ble_eq_true rfl

def inTwoChunks : Segment where
  noise := []
  cmd := 3
  payload := [1, 2]
  noPair := noPair_of_length_lt Nat.zero_lt_two
  fits := Nat.le_of_ble_eq_true rfl

theorem package_in_two_chunks_received :
    ∃ before after, runEvents (comStep (logging keepPayload)) (startCom ((), []))
        ([.commit (inTwoChunks.bytes.take 4), .task] ++
          [.commit (inTwoChunks.bytes.drop 4)]) = some before ∧
      runEvents (comStep (logging keepPayload)) before (replicate 1 .task) = some after ∧
      after.device.2 = [⟨9, 3, [1, 2]⟩] := by
  have defined : ((runEvents (comStep (logging keepPayload)) (startCom ((), []))
      ([.commit (inTwoChunks.bytes.take 4), .task] ++
        [.commit (inTwoChunks.bytes.drop 4)])).map (·.rb.used)) = some 9 := by
    decide +kernel
  rcases Option.map_eq_some_iff.mp defined with ⟨before, ran, used⟩
  have noPair : ¬[0xa5, 0x5a] <:+: ([] : List UInt8) := noPair_of_length_lt Nat.zero_lt_two
  have isStream : committed [.commit (inTwoChunks.bytes.take 4), .task] ++
      inTwoChunks.bytes.drop 4 = stream [inTwoChunks] ++ [] := by decide
  have finished : runEvents (comStep (logging keepPayload)) before
      (replicate (0 + 1) .task) =
        some (before.bootloaderComHandlerTask (logging keepPayload)) := rfl
  refine ⟨before, _, ran, finished, ?_⟩
  apply (packages_received_iff noPair isStream ran finished).mpr
  refine ⟨by decide, ?_⟩
  rw [used]
  decide

/-- A package behind a magic byte and one that the task cuts into two are not handled. -/
theorem package_lost_or_left :
    ((runEvents (comStep (logging keepPayload)) (startCom ((), []))
        [.commit (stream [behindMagic]), .task]).map (·.device.2)) = some [] ∧
      expected 0 [behindMagic] = [⟨10, 3, [1, 2]⟩] ∧
      ((runEvents (comStep (logging keepPayload)) (startCom ((), []))
        [.commit (stream [acrossTurns]), .task]).map (·.device.2)) = some [] ∧
      expected 0 [acrossTurns] = [⟨130, 3, replicate 123 0⟩] := by
  decide +kernel

end CentauriCarbon.Bootloader
