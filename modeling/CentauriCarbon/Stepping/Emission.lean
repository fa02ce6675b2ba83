import CentauriCarbon.Stepping.Planning

/-! # What the host sends

The messages an operation adds, and the moves they mean. `Emits before after moves` says
that the messages queued between two states of a step compression take exactly the
planned steps of `moves`.
-/

namespace CentauriCarbon.Stepping

open List

structure Output where
  maxError : UInt32
  invertSdir : Bool
  sdsFilterTicks : Int
  lastStepClock : UInt64
  sdir : Option Bool
  msgQueue : List StepMessage

def StepCompress.output (sc : StepCompress) : Output :=
  ⟨sc.maxError, sc.invertSdir, sc.sdsFilterTicks, sc.lastStepClock, sc.sdir, sc.msgQueue⟩

structure Facing (output : Output) (motion : Motion) : Prop where
  time : motion.time = UInt32.ofNat output.lastStepClock.toNat
  dir : ∀ dir, output.sdir = some dir → motion.dir = (dir ^^ output.invertSdir)

structure Means (before after : Output) (messages : List StepMessage)
    (moves : List (List PlannedStep)) : Prop where
  counts : messages.filterMap StepMessage.stepCount = moves.map length
  minClock : ∀ message ∈ messages, message.stepCount.isSome →
    before.lastStepClock.toNat ≤ message.minClock.toNat
  executable : ∀ message ∈ messages, message.command.Executable
  facing : ∀ motion, Facing before motion →
    Facing after (motion.executeAll (messages.map StepMessage.command))
  steps : ∀ motion, Facing before motion →
    (motion.executeAll (messages.map StepMessage.command)).steps =
      motion.steps ++ moves.flatten.map (PlannedStep.emitted before.invertSdir)

structure Emits (before after : Output) (moves : List (List PlannedStep)) : Prop where
  maxError : after.maxError = before.maxError
  invertSdir : after.invertSdir = before.invertSdir
  sdsFilterTicks : after.sdsFilterTicks = before.sdsFilterTicks
  advances : before.lastStepClock.toNat ≤ after.lastStepClock.toNat
  tracks : Tracks before.maxError.toNat before.lastStepClock.toNat moves
  last : moves.foldl lastTime before.lastStepClock.toNat = after.lastStepClock.toNat
  messages : ∃ messages, after.msgQueue = before.msgQueue ++ messages ∧
    Means before after messages moves

theorem Motion.executeAll_append (motion : Motion) (left right : List StepCommand) :
    motion.executeAll (left ++ right) = (motion.executeAll left).executeAll right :=
  foldl_append

theorem Emits.refl (output : Output) : Emits output output [] where
  maxError := rfl
  invertSdir := rfl
  sdsFilterTicks := rfl
  advances := le_rfl
  tracks := trivial
  last := rfl
  messages := by
    refine ⟨[], (append_nil _).symm, rfl, by simp, by simp, ?_, ?_⟩
    · intro motion facing
      exact facing
    · intro motion facing
      exact (append_nil _).symm

variable {before middle after : Output}

theorem Means.append (invertSdir : middle.invertSdir = before.invertSdir)
    (advances : before.lastStepClock.toNat ≤ middle.lastStepClock.toNat)
    (first : Means before middle left leftMoves) (second : Means middle after right rightMoves) :
    Means before after (left ++ right) (leftMoves ++ rightMoves) where
  counts := by
    rw [filterMap_append, first.counts, second.counts, map_append]
  minClock := forall_mem_append.mpr ⟨first.minClock, fun message member step =>
    advances.trans (second.minClock message member step)⟩
  executable := forall_mem_append.mpr ⟨first.executable, second.executable⟩
  facing motion facing := by
    rw [map_append, Motion.executeAll_append]
    exact second.facing _ (first.facing motion facing)
  steps motion facing := by
    rw [map_append, Motion.executeAll_append,
      second.steps _ (first.facing motion facing), first.steps motion facing, invertSdir,
      flatten_append, map_append, append_assoc]

theorem Emits.trans (first : Emits before middle leftMoves)
    (second : Emits middle after rightMoves) : Emits before after (leftMoves ++ rightMoves) where
  maxError := second.maxError.trans first.maxError
  invertSdir := second.invertSdir.trans first.invertSdir
  sdsFilterTicks := second.sdsFilterTicks.trans first.sdsFilterTicks
  advances := first.advances.trans second.advances
  tracks := by
    apply first.tracks.append
    rw [first.last, ← first.maxError]
    exact second.tracks
  last := by
    rw [foldl_append, first.last, second.last]
  messages := by
    rcases first.messages with ⟨left, leftQueue, leftMeans⟩
    rcases second.messages with ⟨right, rightQueue, rightMeans⟩
    refine ⟨left ++ right, ?_, leftMeans.append first.invertSdir first.advances rightMeans⟩
    rw [rightQueue, leftQueue, append_assoc]

/-! ## Adding a move -/

variable {requests : List StepRequest} {sc : StepCompress}

/-- A move whose `queue_step` takes the planned steps, and ends where `add_move` says. -/
theorem addMove_emits {move : StepMove} {plan : List PlannedStep} (nonzero : move.count ≠ 0)
    (length : plan.length = move.count.toNat)
    (tracks : InWindows sc.maxError.toNat sc.lastStepClock.toNat plan)
    (last : lastTime sc.lastStepClock.toNat plan = (addMove sc firstClock move).lastStepClock.toNat)
    (advances : sc.lastStepClock.toNat ≤ (addMove sc firstClock move).lastStepClock.toNat)
    (advance : ∀ motion, Facing sc.output motion →
      motion.advance (UInt32.ofInt move.add.toInt) move.count.toNat move.interval =
        ⟨UInt32.ofNat (addMove sc firstClock move).lastStepClock.toNat, motion.dir,
          motion.steps ++ plan.map (PlannedStep.emitted sc.invertSdir)⟩) :
    Emits sc.output (addMove sc firstClock move).output [plan] where
  maxError := rfl
  invertSdir := rfl
  sdsFilterTicks := rfl
  advances
  tracks := ⟨tracks, trivial⟩
  last
  messages := by
    have execute : ∀ motion, Facing sc.output motion →
        motion.execute (.queueStep move.interval move.count.toUInt32
          (UInt32.ofInt move.add.toInt)) =
        ⟨UInt32.ofNat (addMove sc firstClock move).lastStepClock.toNat, motion.dir,
          motion.steps ++ plan.map (PlannedStep.emitted sc.invertSdir)⟩ := by
      intro motion facing
      rw [Motion.execute, UInt32.toInt16_ofInt_toInt, UInt16.toUInt16_toUInt32]
      exact advance motion facing
    refine ⟨_, rfl, ?_, ?_, ?_, ?_, ?_⟩
    · simp [StepMessage.stepCount, length]
    · exact forall_mem_singleton.mpr fun _ => le_rfl
    · refine forall_mem_singleton.mpr ?_
      change move.count.toUInt32.toUInt16 ≠ 0
      rw [UInt16.toUInt16_toUInt32]
      exact nonzero
    · intro motion facing
      rw [map_singleton, Motion.executeAll, foldl_cons, execute motion facing]
      exact ⟨rfl, facing.dir⟩
    · intro motion facing
      rw [map_singleton, Motion.executeAll, foldl_cons, execute motion facing, flatten_singleton]
      rfl

section Compressed

variable {sc : StepCompress} {requests : List StepRequest} {interval add : Int} {count : Nat}

theorem interval_le_position (windowed : Windowed sc) (usable : Usable sc interval count add)
    (pos : Nat) (inside : pos < count) : interval ≤ position interval add (pos + 1) := by
  induction pos with
  | zero =>
    rw [position_succ, position_zero]
    simp
  | succ pos induction =>
    have before := induction (by omega)
    have positive := usable.interval_pos windowed (pos + 1) inside
    rw [position_succ]
    omega

variable (aligned : Aligned sc requests) (usable : Usable sc interval count add)
include aligned usable

/-- After a compressed move the last step clock is the time of its last step. -/
theorem lastStepClock_addMove :
    (addMove sc (sc.lastStepClock + (stepMove interval count add).interval.toUInt64)
        (stepMove interval count add)).lastStepClock.toNat =
      sc.lastStepClock.toNat + (position interval add count).toNat := by
  have windowed := aligned.windowed
  have nonzero := usable.nonzero
  have low := aligned.bounded _ mem_cons_self
  have word := usable.toNat_interval windowed
  have reached := usable.position_lt windowed count le_rfl
  have beyond := interval_le_position windowed usable (count - 1) (by omega)
  rw [Nat.sub_add_cancel nonzero] at beyond
  have ticks : UInt32.ofInt ((stepMove interval count add).add.toInt *
        addFactor (stepMove interval count add).count.toNat) +
      (stepMove interval count add).interval *
        UInt32.ofInt ((stepMove interval count add).count.toNat - 1) =
      UInt32.ofInt (position interval add count - interval) := by
    rw [usable.toInt_add, usable.toNat_count, (usable.moderate windowed).mul_addFactor.1]
    change _ + UInt32.ofInt interval * _ = _
    rw [← UInt32.ofInt_mul, ← UInt32.ofInt_add, position]
    congr 1
    ring
  have ticksNat :
      ((UInt32.ofInt (position interval add count - interval)).toNat : Int) =
        position interval add count - interval := by
    apply UInt32.toNat_ofInt_of_lt
    · omega
    · omega
  rw [addMove]
  dsimp only
  rw [ticks]
  rw [clockLimit] at low
  rw [UInt64.toNat_add_of_lt, UInt64.toNat_add_of_lt, UInt32.toNat_toUInt64, UInt32.toNat_toUInt64]
  · omega
  · rw [UInt32.toNat_toUInt64]
    omega
  rw [UInt64.toNat_add_of_lt]
  · rw [UInt32.toNat_toUInt64, UInt32.toNat_toUInt64]
    omega
  · rw [UInt32.toNat_toUInt64]
    omega

theorem compressed_emits : Emits sc.output
      (addMove sc (sc.lastStepClock + (stepMove interval count add).interval.toUInt64)
        (stepMove interval count add)).output
      [planMove sc.lastStepClock.toNat interval add 0 (requests.take count)] := by
  have windowed := aligned.windowed
  have inQueue := usable.inQueue
  have length : (requests.take count).length = count := by
    rw [length_take, ← aligned.length_queue]
    omega
  have reached := lastStepClock_addMove aligned usable
  have nonzero := usable.nonzero
  have counted := usable.toNat_count
  apply addMove_emits
  · intro zero
    rw [zero] at counted
    change 0 = count at counted
    omega
  · rw [length_planMove, length, usable.toNat_count]
  · exact inWindows_planMove aligned usable count 0 (by omega)
  · have ending := lastTime_planMove sc.lastStepClock.toNat interval add 0 (requests.take count)
    rw [length, position_zero, zero_add] at ending
    rw [reached]
    exact ending
  · omega
  intro motion facing
  rcases motion with ⟨time, dir, steps⟩
  have started : time = UInt32.ofNat sc.lastStepClock.toNat := facing.time
  rw [reached, usable.toInt_add, usable.toNat_count, started]
  have facingAll : ∀ request ∈ requests.take count, (request.dir ^^ sc.invertSdir) = dir := by
    intro request member
    exact (facing.dir _ (aligned.facing request (mem_of_mem_take member))).symm
  have advanced := advance_planMove sc.lastStepClock.toNat interval add 0
    (requests.take count) facingAll (by
      intro pos above below
      rw [length] at below
      exact usable.position_nonneg windowed pos (by omega)) steps
  rw [length, position_zero, zero_add] at advanced
  simp only [Nat.cast_zero, mul_zero, add_zero, Int.toNat_zero] at advanced
  exact advanced

theorem compressed_aligned (base : Nat) :
    Aligned (afterMove sc (stepMove interval count add) base) (requests.drop count) := by
  have inQueue := usable.inQueue
  have nonzero := usable.nonzero
  rw [aligned.length_queue] at inQueue
  have reached : (afterMove sc (stepMove interval count add) base).lastStepClock.toNat =
      sc.lastStepClock.toNat + (position interval add count).toNat :=
    lastStepClock_addMove aligned usable
  -- the last step of the move is not after its own clock
  have last := (usable.covers (count - 1) (by omega)).2
  have inside : count - 1 < requests.length := by omega
  rw [aligned.minmaxPoint_eq inside, Nat.sub_add_cancel nonzero] at last
  dsimp only at last
  have bounds := aligned.clock_bounds inside
  have notAfter : (afterMove sc (stepMove interval count add) base).lastStepClock.toNat ≤
      (clocks requests).getD (count - 1) 0 := by
    omega
  have dropped : clocks (requests.drop count) = (clocks requests).drop count := map_drop
  have split := take_append_drop count (clocks requests)
  have ascending := (pairwise_cons.mp aligned.ascending).2
  have lastMem : (clocks requests).getD (count - 1) 0 ∈ (clocks requests).take count := by
    have insideClocks : count - 1 < (clocks requests).length := by
      rw [clocks, length_map]
      exact inside
    rw [getD_eq_getElem _ _ insideClocks]
    exact mem_take_iff_getElem.mpr ⟨count - 1, by omega, rfl⟩
  constructor
  · rw [usable.queue_afterMove, aligned.queue, dropped, map_drop]
  · rw [dropped]
    rw [← split] at ascending
    have parts := pairwise_append.mp ascending
    apply pairwise_cons.mpr
    refine ⟨?_, parts.2.1⟩
    intro clock member
    exact lt_of_le_of_lt notAfter (parts.2.2 _ lastMem clock member)
  · intro clock member
    rw [dropped] at member
    have near := aligned.near clock (mem_of_mem_drop member)
    omega
  · intro clock member
    rcases mem_cons.mp member with same | member
    · rw [same]
      have below := aligned.bounded _ (mem_cons_of_mem _ (mem_of_mem_take lastMem))
      omega
    · rw [dropped] at member
      exact aligned.bounded clock (mem_cons_of_mem _ (mem_of_mem_drop member))
  · intro request member
    exact aligned.facing request (mem_of_mem_drop member)
  · exact aligned.maxError_le

end Compressed

/-! ## Flushing the queue -/

def Serves (sc next : StepCompress) (requests rest : List StepRequest) : Prop :=
  ∃ moves, Emits sc.output next.output moves ∧
    moves.flatten.map PlannedStep.request ++ rest = requests ∧ Aligned next rest

section

variable {sc next : StepCompress} {requests rest : List StepRequest}
  (serves : Serves sc next requests rest)
include serves

theorem Serves.aligned : Aligned next rest := by
  rcases serves with ⟨_, _, _, aligned⟩
  exact aligned

theorem Serves.sdsFilterTicks : next.sdsFilterTicks = sc.sdsFilterTicks := by
  rcases serves with ⟨_, emits, _, _⟩
  exact emits.sdsFilterTicks

end

theorem Serves.refl (aligned : Aligned sc requests) : Serves sc sc requests requests :=
  ⟨[], Emits.refl _, rfl, aligned⟩

theorem Serves.trans {sc middle next : StepCompress} (first : Serves sc middle requests queued)
    (second : Serves middle next (queued ++ added) rest) :
    Serves sc next (requests ++ added) rest := by
  rcases first with ⟨leftMoves, leftEmits, leftSplit, _⟩
  rcases second with ⟨rightMoves, rightEmits, rightSplit, aligned⟩
  refine ⟨leftMoves ++ rightMoves, leftEmits.trans rightEmits, ?_, aligned⟩
  rw [flatten_append, map_append, append_assoc, rightSplit, ← leftSplit, append_assoc]

structure Steady (sc next : StepCompress) : Prop where
  sdir : next.sdir = sc.sdir
  nextStepClock : next.nextStepClock = sc.nextStepClock
  nextStepDir : next.nextStepDir = sc.nextStepDir

theorem queueFlush_spec (moveClock : UInt64) (aligned : Aligned sc requests) :
    ∃ next rest, queueFlush sc moveClock = .done next ∧
      Serves sc next requests rest ∧ Steady sc next ∧
      (rest = [] ∨ moveClock ≤ next.lastStepClock) := by
  have flush := queueFlush_rule
    (fun next => ∃ rest, Serves sc next requests rest ∧ Steady sc next) ?_ ?_ moveClock
    ⟨requests, Serves.refl aligned, rfl, rfl, rfl⟩
  · rcases flush with ⟨next, done, ⟨rest, serves, steady⟩, ends⟩
    refine ⟨next, rest, done, serves, steady, ends.imp_left ?_⟩
    intro empty
    apply eq_nil_of_length_eq_zero
    rw [← serves.aligned.length_queue, empty, length_nil]
  · rintro next ⟨rest, serves, -⟩
    exact serves.aligned.windowed
  rintro next interval count add base ⟨rest, serves, steady⟩ usable
  have emits := compressed_emits serves.aligned usable
  have more : Serves next (afterMove next (stepMove interval count add) base) rest
      (rest.drop count) := by
    refine ⟨_, emits, ?_, compressed_aligned serves.aligned usable base⟩
    rw [flatten_singleton, planMove_request, take_append_drop]
  rw [← append_nil rest] at more
  rw [← append_nil requests]
  exact ⟨_, serves.trans more, steady.sdir, steady.nextStepClock, steady.nextStepDir⟩

theorem Aligned.not_late (aligned : Aligned sc requests) : ¬uint64Max ≤ sc.lastStepClock := by
  intro late
  have bounded := aligned.bounded _ mem_cons_self
  rw [UInt64.le_iff_toNat_le] at late
  change 2 ^ 64 - 1 ≤ _ at late
  rw [clockLimit] at bounded
  omega

theorem queueFlush_all (aligned : Aligned sc requests) :
    ∃ next, queueFlush sc uint64Max = .done next ∧ Serves sc next requests [] ∧ Steady sc next := by
  rcases queueFlush_spec uint64Max aligned with ⟨next, rest, run, serves, steady, ends⟩
  refine ⟨next, run, ?_, steady⟩
  rcases ends with empty | late
  · rw [empty] at serves
    exact serves
  · exact absurd late serves.aligned.not_late

end CentauriCarbon.Stepping
