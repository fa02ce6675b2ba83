import CentauriCarbon.Foundation.MachineWord

/-! # Step compression

`stepcompress.c` up to the queue of messages: the queue of step clocks, the search for a
quadratic sequence that covers them, the check of its result, and the operations of the
interface. `stepcompress_append` is reduced to its integer core, a direction and a step
clock; the conversion from print times is floating point.

The storage of the queue is kept as far as the code decides on it: `queue` holds the
clocks from `queue_pos` to `queue_next`, `queueBase` is `queue_pos - queue` and
`queueSize` is `queue_end - queue`.
-/

namespace CentauriCarbon.Stepping

def clockDiffMax : UInt64 := 0x30000000

def uint64Max : UInt64 := 0xffffffffffffffff

def queueStartSize : Nat := 1024

def quadraticDev : UInt32 := 11

structure StepMove where
  interval : UInt32
  count : UInt16
  add : Int16
  deriving DecidableEq

/-- The commands a stepper's message queue carries. Each holds the arguments as they are
encoded, without the message tag and the oid. -/
inductive StepCommand where
  | queueStep (interval count add : UInt32)
  | setNextStepDir (dir : UInt32)
  | other (data : List UInt32)
  deriving DecidableEq

structure StepMessage where
  command : StepCommand
  minClock : UInt64
  reqClock : UInt64
  deriving DecidableEq

structure HistorySteps where
  firstClock : UInt64
  lastClock : UInt64
  startPosition : Int64
  stepCount : Int
  interval : UInt32
  add : Int16
  deriving DecidableEq

/-- A `struct stepcompress`. The direction `sdir` is `none` for -1, and
`sdsFilterTicks` is `SDS_FILTER_TIME * mcu_freq` rounded up. -/
structure StepCompress where
  queue : List UInt32
  queueBase : Nat
  queueSize : Nat
  maxError : UInt32
  lastStepClock : UInt64
  msgQueue : List StepMessage
  sdir : Option Bool
  invertSdir : Bool
  nextStepClock : UInt64
  nextStepDir : Bool
  sdsFilterTicks : Int
  lastPosition : Int64
  historyList : List HistorySteps
  deriving DecidableEq

/-- What an operation leaves: `failed` for `ERROR_RET`, `overran` for a write behind the end
of an array, after which nothing is known. -/
inductive Outcome (State : Type) where
  | done (state : State)
  | failed (state : State)
  | overran (state : State)
  deriving DecidableEq

namespace Outcome

variable {State : Type}

def state : Outcome State → State
  | done state | failed state | overran state => state

def bind : Outcome State → (State → Outcome State) → Outcome State
  | done state, next => next state
  | failed state, _ => failed state
  | overran state, _ => overran state

@[simp] theorem done_bind (state : State) (next : State → Outcome State) :
    (done state).bind next = next state := rfl

end Outcome

/-! ## The search for a sequence -/

/-- The value that a 32-bit signed variable holds. Sums and products wrap around, so it is
enough to cut them where they are compared, divided or stored. -/
@[irreducible] def int32 (value : Int) : Int := value.bmod (2 ^ 32)

def idivUp (n d : Int) : Int :=
  if n ≥ 0 then (int32 (n + d - 1)).tdiv d else n.tdiv d

def idivDown (n d : Int) : Int :=
  if n ≥ 0 then n.tdiv d else (int32 (n - d + 1)).tdiv d

def raiseTo (low d target : Int) : Int :=
  if int32 (low * d) < int32 target then idivUp (int32 target) d else low

def lowerTo (high d target : Int) : Int :=
  if int32 (high * d) > int32 target then idivDown (int32 target) d else high

structure Points where
  minp : Int
  maxp : Int

variable (sc : StepCompress) (range : AddRange)

def minmaxPoint (pos : Nat) : Points :=
  let lsc := sc.lastStepClock.toUInt32
  let point := sc.queue.getD pos 0 - lsc
  let prevpoint := if 0 < pos then sc.queue.getD (pos - 1) 0 - lsc else 0
  let maxError := (point - prevpoint) / 2
  let maxError := if maxError > sc.maxError then sc.maxError else maxError
  { minp := (point - maxError).toInt32.toInt, maxp := point.toInt32.toInt }

def addFactor (count : Nat) : Int := (int32 (count * (count - 1) : Nat)).tdiv 2

inductive Longest where
  | exhausted (interval : Int) (count : Nat)
  | blocked (interval : Int) (count : Nat) (nextmininterval nextmaxinterval : Int)
      (nextpoint : Points)

/-- Find the longest valid sequence with the given `add`. The sequence has `count` steps
so far, `remaining` more points may follow, and the interval is `maxinterval`. -/
def findLongest (sc : StepCompress) (add : Int) : Nat → Nat → Int → Int → Longest
  | 0, count, _, maxinterval => .exhausted maxinterval count
  | remaining + 1, count, mininterval, maxinterval =>
    let nextcount := count + 1
    let nextpoint := minmaxPoint sc (nextcount - 1)
    let c := add * addFactor nextcount
    let nextmininterval := raiseTo mininterval nextcount (nextpoint.minp - c)
    let nextmaxinterval := lowerTo maxinterval nextcount (nextpoint.maxp - c)
    if nextmininterval > nextmaxinterval then
      .blocked maxinterval count nextmininterval nextmaxinterval nextpoint
    else
      findLongest sc add remaining nextcount nextmininterval nextmaxinterval

/-- The value of `add` that `compress_bisect_add` tries and the ranges it is still to
search. -/
structure AddRange where
  outerMininterval : Int
  outerMaxinterval : Int
  add : Int
  minadd : Int
  maxadd : Int

structure Best where
  bestinterval : Int
  bestcount : Nat
  bestadd : Int
  bestreach : Int
  zerointerval : Int
  zerocount : Nat

def AddRange.start (point : Points) : AddRange where
  outerMininterval := point.minp
  outerMaxinterval := point.maxp
  add := 0
  minadd := -0x8000
  maxadd := 0x7fff

def Best.start : Best where
  bestinterval := 0
  bestcount := 1
  bestadd := 1
  bestreach := -0x80000000
  zerointerval := 0
  zerocount := 0

def stepMove (interval : Int) (count : Nat) (add : Int) : StepMove :=
  ⟨UInt32.ofInt interval, UInt16.ofNat count, Int16.ofInt add⟩

def Best.improvedBy (best : Best) (interval : Int) (count : Nat) (add : Int) : Bool :=
  let reach := int32 (add * addFactor count + interval * count)
  reach > best.bestreach || (reach = best.bestreach && interval > best.bestinterval)

def Best.record (best : Best) (interval : Int) (count : Nat) (add : Int) : Best where
  bestinterval := interval
  bestcount := count
  bestadd := add
  bestreach := int32 (add * addFactor count + interval * count)
  zerointerval := if add = 0 then interval else best.zerointerval
  zerocount := if add = 0 then count else best.zerocount

def Best.result (best : Best) : StepMove :=
  if best.zerocount + best.zerocount / 16 ≥ best.bestcount then
    stepMove best.zerointerval best.zerocount 0
  else
    stepMove best.bestinterval best.bestcount best.bestadd

def AddRange.bisect (interval : Int) (count : Nat)
    (nextmininterval nextmaxinterval : Int) (nextpoint : Points) : AddRange :=
  let nextcount := count + 1
  let nextreach := int32 (range.add * addFactor nextcount + interval * nextcount)
  if nextreach < nextpoint.minp then
    { range with minadd := int32 (range.add + 1), outerMaxinterval := nextmaxinterval }
  else
    { range with maxadd := int32 (range.add - 1), outerMininterval := nextmininterval }

def AddRange.limitDeviation (maxError : UInt32) (count : Nat) : AddRange :=
  if count > 1 then
    let errdelta := (maxError * quadraticDev / UInt32.ofNat (count * count)).toInt32.toInt
    { range with
      minadd := max range.minadd (int32 (range.add - errdelta))
      maxadd := min range.maxadd (int32 (range.add + errdelta)) }
  else range

def AddRange.limitReach (count : Nat) (nextpoint : Points) : AddRange :=
  let nextcount := count + 1
  { range with
    minadd := raiseTo range.minadd (addFactor nextcount)
      (nextpoint.minp - range.outerMaxinterval * nextcount)
    maxadd := lowerTo range.maxadd (addFactor nextcount)
      (nextpoint.maxp - range.outerMininterval * nextcount) }

def AddRange.retry : AddRange :=
  { range with
    add := int32 (range.maxadd - (int32 (range.maxadd - range.minadd)).tdiv 4) }

/-- The rounds of the search. Each one takes at least one value of `add` out of the
range, so as many rounds as the range has values are enough. -/
def searchAdd (sc : StepCompress) : Nat → AddRange → Best → StepMove
  | 0, _, best => best.result
  | rounds + 1, range, best =>
    match findLongest sc range.add (min sc.queue.length 65535 - 1) 1
        range.outerMininterval range.outerMaxinterval with
    | .exhausted interval count => stepMove interval count range.add
    | .blocked interval count nextmininterval nextmaxinterval nextpoint =>
      let improved := best.improvedBy interval count range.add
      let best := if improved then best.record interval count range.add else best
      if improved ∧ count > 0x200 then best.result
      else
        let bisected := range.bisect interval count nextmininterval nextmaxinterval nextpoint
        let limited := (bisected.limitDeviation sc.maxError count).limitReach count nextpoint
        if limited.minadd > limited.maxadd then best.result
        else searchAdd sc rounds limited.retry best

def compressBisectAdd : StepMove :=
  searchAdd sc 0x10000 (AddRange.start (minmaxPoint sc 0)) Best.start

def checkPoints (sc : StepCompress) (add : UInt32) : Nat → Nat → UInt32 → UInt32 → Bool
  | 0, _, _, _ => true
  | remaining + 1, pos, interval, p =>
    let point := minmaxPoint sc pos
    let p := p + interval
    if p < UInt32.ofInt point.minp ∨ p > UInt32.ofInt point.maxp then false
    else if interval ≥ 0x80000000 then false
    else checkPoints sc add remaining (pos + 1) (interval + add) p

def checkLine (move : StepMove) : Bool :=
  if move.count = 0 ∨ (move.interval = 0 ∧ move.add = 0 ∧ move.count > 1) ∨
      move.interval ≥ 0x80000000 then false
  else checkPoints sc (UInt32.ofInt move.add.toInt) move.count.toNat 0 move.interval 0

/-! ## Message generation -/

def stepcompressAlloc (maxError : UInt32) (sdsFilterTicks : Int) : StepCompress where
  queue := []
  queueBase := 0
  queueSize := 0
  maxError
  lastStepClock := 0
  msgQueue := []
  sdir := none
  invertSdir := false
  nextStepClock := 0
  nextStepDir := false
  sdsFilterTicks
  lastPosition := 0
  historyList := []

def stepcompressSetInvertSdir (invertSdir : Bool) : StepCompress :=
  if invertSdir = sc.invertSdir then sc
  else { sc with invertSdir, sdir := sc.sdir.map (!·) }

def freeHistory (endClock : UInt64) : StepCompress :=
  { sc with
    historyList := (sc.historyList.reverse.dropWhile
      fun steps => !decide (steps.lastClock > endClock)).reverse }

def addMove (firstClock : UInt64) (move : StepMove) : StepCompress :=
  let ticks := UInt32.ofInt (move.add.toInt * addFactor move.count.toNat) +
    move.interval * UInt32.ofInt (move.count.toNat - 1)
  let lastClock := firstClock + ticks.toUInt64
  let reqClock :=
    if move.count = 1 ∧ firstClock ≥ sc.lastStepClock + clockDiffMax then firstClock
    else sc.lastStepClock
  let stepCount : Int := if sc.sdir = some false then -move.count.toNat else move.count.toNat
  { sc with
    msgQueue := sc.msgQueue ++
      [{ command := .queueStep move.interval move.count.toUInt32 (UInt32.ofInt move.add.toInt)
         minClock := sc.lastStepClock
         reqClock }]
    lastStepClock := lastClock
    lastPosition := sc.lastPosition + Int64.ofInt stepCount
    historyList :=
      { firstClock
        lastClock
        startPosition := sc.lastPosition
        stepCount
        interval := move.interval
        add := move.add } :: sc.historyList }

/-- The loop of `queue_flush`. Every round takes at least one step out of the queue. -/
def queueFlushLoop (moveClock : UInt64) : Nat → StepCompress → Outcome StepCompress
  | 0, sc => .done sc
  | rounds + 1, sc =>
    if sc.lastStepClock < moveClock then
      let move := compressBisectAdd sc
      if checkLine sc move then
        let added := addMove sc (sc.lastStepClock + move.interval.toUInt64) move
        if move.count.toNat ≥ sc.queue.length then
          .done { added with queue := [], queueBase := 0 }
        else
          queueFlushLoop moveClock rounds
            { added with
              queue := sc.queue.drop move.count.toNat
              queueBase := sc.queueBase + move.count.toNat }
      else .failed sc
    else .done sc

def queueFlush (moveClock : UInt64) : Outcome StepCompress :=
  if sc.queue = [] then .done sc
  else queueFlushLoop moveClock sc.queue.length sc

def stepcompressFlushFar (absStepClock : UInt64) : StepCompress :=
  addMove sc absStepClock ⟨(absStepClock - sc.lastStepClock).toUInt32, 1, 0⟩

def setNextStepDir (sc : StepCompress) (sdir : Bool) : Outcome StepCompress :=
  if sc.sdir = some sdir then .done sc
  else
    (queueFlush sc uint64Max).bind fun sc =>
      .done
        { sc with
          sdir := some sdir
          msgQueue := sc.msgQueue ++
            [{ command := .setNextStepDir (sdir ^^ sc.invertSdir).toUInt32
               minClock := 0
               reqClock := sc.lastStepClock }] }

def pushStep (stepClock : UInt64) : StepCompress :=
  { sc with queue := sc.queue ++ [stepClock.toUInt32] }

def queueAppendFar : Outcome StepCompress :=
  let stepClock := sc.nextStepClock
  (queueFlush { sc with nextStepClock := 0 } (stepClock - clockDiffMax + 1)).bind fun sc =>
    if stepClock ≥ sc.lastStepClock + clockDiffMax then
      .done (stepcompressFlushFar sc stepClock)
    else if sc.queueBase + sc.queue.length < sc.queueSize then .done (pushStep sc stepClock)
    else .overran sc

def growAlloc (inUse : Nat) : Nat → Nat → Nat
  | 0, alloc => alloc
  | rounds + 1, alloc => if inUse ≥ alloc then growAlloc inUse rounds (alloc * 2) else alloc

def makeRoom : StepCompress :=
  if sc.queueBase + sc.queue.length ≥ sc.queueSize then
    if sc.queueBase > 0 then { sc with queueBase := 0 }
    else
      let alloc := if sc.queueSize = 0 then queueStartSize else sc.queueSize
      { sc with queueSize := growAlloc sc.queue.length sc.queue.length alloc }
  else sc

def queueAppendExtend : Outcome StepCompress :=
  let flushed :=
    if sc.queue.length > 65535 + 2000 then
      let flush := sc.queue.getD (sc.queue.length - 65535) 0 - sc.lastStepClock.toUInt32
      queueFlush sc (sc.lastStepClock + flush.toUInt64)
    else .done sc
  flushed.bind fun sc =>
    .done { pushStep (makeRoom sc) sc.nextStepClock with nextStepClock := 0 }

def queueAppend : Outcome StepCompress :=
  (if sc.sdir ≠ some sc.nextStepDir then setNextStepDir sc sc.nextStepDir
    else .done sc).bind fun sc =>
    if sc.nextStepClock ≥ sc.lastStepClock + clockDiffMax then queueAppendFar sc
    else if sc.queueBase + sc.queue.length ≥ sc.queueSize then queueAppendExtend sc
    else .done { pushStep sc sc.nextStepClock with nextStepClock := 0 }

def rollsBack (sdsFilterTicks : Int) (pendingDir : Bool) (pendingClock : UInt64)
    (sdir : Bool) (stepClock : UInt64) : Bool :=
  sdir ≠ pendingDir && (stepClock - pendingClock).toInt64.toInt < sdsFilterTicks

def stepcompressAppend (sdir : Bool) (stepClock : UInt64) : Outcome StepCompress :=
  if sc.nextStepClock ≠ 0 then
    if rollsBack sc.sdsFilterTicks sc.nextStepDir sc.nextStepClock sdir stepClock then
      .done { sc with nextStepClock := 0, nextStepDir := sdir }
    else
      (queueAppend sc).bind fun sc =>
        .done { sc with nextStepClock := stepClock, nextStepDir := sdir }
  else .done { sc with nextStepClock := stepClock, nextStepDir := sdir }

def stepcompressCommit : Outcome StepCompress :=
  if sc.nextStepClock ≠ 0 then queueAppend sc else .done sc

def stepcompressFlush (moveClock : UInt64) : Outcome StepCompress :=
  (if sc.nextStepClock ≠ 0 ∧ moveClock ≥ sc.nextStepClock then queueAppend sc
    else .done sc).bind fun sc => queueFlush sc moveClock

def stepcompressReset (lastStepClock : UInt64) : Outcome StepCompress :=
  (stepcompressFlush sc uint64Max).bind fun sc =>
    .done { sc with lastStepClock, sdir := none }

def stepcompressSetLastPosition (clock : UInt64) (lastPosition : Int64) : Outcome StepCompress :=
  (stepcompressFlush sc uint64Max).bind fun sc =>
    .done
      { sc with
        lastPosition
        historyList :=
          { firstClock := clock
            lastClock := clock
            startPosition := lastPosition
            stepCount := 0
            interval := 0
            add := 0 } :: sc.historyList }

def stepcompressQueueMsg (data : List UInt32) : Outcome StepCompress :=
  (stepcompressFlush sc uint64Max).bind fun sc =>
    .done
      { sc with msgQueue := sc.msgQueue ++ [⟨.other data, 0, sc.lastStepClock⟩] }

def stepcompressQueueMqMsg (reqClock : UInt64) (data : List UInt32) : Outcome StepCompress :=
  (stepcompressFlush sc uint64Max).bind fun sc =>
    .done { sc with msgQueue := sc.msgQueue ++ [⟨.other data, reqClock, reqClock⟩] }

inductive StepOp where
  | append (sdir : Bool) (stepClock : UInt64)
  | commit
  | flush (moveClock : UInt64)

def StepOp.apply : StepOp → Outcome StepCompress
  | .append sdir stepClock => stepcompressAppend sc sdir stepClock
  | .commit => stepcompressCommit sc
  | .flush moveClock => stepcompressFlush sc moveClock

def applyAll (sc : StepCompress) : List StepOp → Outcome StepCompress
  | [] => .done sc
  | op :: ops => (op.apply sc).bind fun sc => applyAll sc ops

end CentauriCarbon.Stepping
