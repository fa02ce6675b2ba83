import CentauriCarbon.Stepping.Emission

/-! # Runs of the step compression

What each operation does to the queue and to the messages, and from it what any sequence
of operations on ascending clocks does: it succeeds, and serves exactly the requests that
the step+dir+step filter lets through.
-/

namespace CentauriCarbon.Stepping

open List

def Under (bound : Nat) (sc : StepCompress) (requests : List StepRequest) : Prop :=
  ∀ clock ∈ sc.lastStepClock.toNat :: clocks requests, clock < bound

theorem Serves.under {next : StepCompress} (serves : Serves sc next requests rest)
    (under : Under bound sc requests) : Under bound next rest := by
  rcases serves with ⟨moves, emits, split, _⟩
  intro clock member
  rcases mem_cons.mp member with same | queued
  · rw [same]
    have last : moves.foldl lastTime sc.lastStepClock.toNat = next.lastStepClock.toNat := emits.last
    rw [← last]
    apply emits.tracks.lastTime_lt
    · exact under _ mem_cons_self
    intro step planned
    apply under
    rw [← split, clocks, map_append, map_map]
    exact mem_cons_of_mem _ (mem_append_left _ (mem_map_of_mem planned))
  · apply under
    rw [← split, clocks, map_append]
    exact mem_cons_of_mem _ (mem_append_right _ queued)

/-! ## Directions and single steps -/

variable {requests : List StepRequest} {sc next : StepCompress} {floor : Nat} {stepClock : UInt64}

/-- A step far from the last one is a move of its own, at its exact clock. -/
theorem stepcompressFlushFar_serves (aligned : Aligned sc []) (facing : sc.sdir = some dir)
    (after : sc.lastStepClock.toNat < stepClock.toNat) (bounded : stepClock.toNat < clockLimit) :
    Serves sc (stepcompressFlushFar sc stepClock) [⟨dir, stepClock.toNat⟩] [] := by
  have reached : (stepcompressFlushFar sc stepClock).lastStepClock = stepClock := by
    rw [stepcompressFlushFar, addMove]
    dsimp only
    rw [show UInt32.ofInt ((0 : Int16).toInt * addFactor (1 : UInt16).toNat) = 0 by decide +kernel,
      show UInt32.ofInt ((1 : UInt16).toNat - 1) = 0 by decide, UInt32.mul_zero, UInt32.zero_add]
    exact UInt64.add_zero stepClock
  refine ⟨[[⟨dir, stepClock.toNat, stepClock.toNat⟩]], ?_, rfl, ?_⟩
  · apply addMove_emits
    · change (1 : UInt16) ≠ 0
      decide
    · rfl
    · refine ⟨after, ?_, le_rfl, trivial⟩
      dsimp only
      omega
    · exact congrArg UInt64.toNat reached.symm
    · exact after.le.trans (le_of_eq (congrArg UInt64.toNat reached.symm))
    · intro motion motionFacing
      have arrives : motion.time + (stepClock - sc.lastStepClock).toUInt32 =
          UInt32.ofNat stepClock.toNat := by
        rw [motionFacing.time]
        change sc.lastStepClock.toUInt32 + _ = stepClock.toUInt32
        rw [← UInt64.toUInt32_add]
        congr 1
        rw [UInt64.add_comm, UInt64.sub_add_cancel]
      have turned : motion.dir = (dir ^^ sc.invertSdir) := motionFacing.dir dir facing
      change Motion.mk _ _ _ = Motion.mk _ _ _
      rw [arrives, turned]
      exact congrArg (fun clock : UInt64 => Motion.mk (UInt32.ofNat clock.toNat) _ _) reached.symm
  · constructor
    · exact aligned.queue
    · exact pairwise_singleton _ _
    · simp [clocks]
    · rw [reached]
      exact forall_mem_singleton.mpr bounded
    · simp
    · exact aligned.maxError_le

structure Pending (sc : StepCompress) (requests : List StepRequest) : Prop where
  after : Under sc.nextStepClock.toNat sc requests
  bounded : sc.nextStepClock.toNat < clockLimit

theorem Pending.serves (pending : Pending sc requests) (serves : Serves sc next requests rest)
    (same : next.nextStepClock = sc.nextStepClock) : Pending next rest := by
  rcases pending with ⟨after, bounded⟩
  rw [← same] at after bounded
  exact ⟨serves.under after, bounded⟩

def StepCompress.nextRequest (sc : StepCompress) : StepRequest :=
  ⟨sc.nextStepDir, sc.nextStepClock.toNat⟩

def Queues (sc next : StepCompress) (requests rest : List StepRequest) : Prop :=
  Serves sc next (requests ++ [sc.nextRequest]) rest ∧ next.nextStepClock = 0

/-- A far step that is not sent at once finds a free place behind the queued ones. -/
def StepCompress.HasRoom (sc : StepCompress) : Prop :=
  sc.nextStepClock ≥ sc.lastStepClock + clockDiffMax →
    sc.queue = [] ∨ sc.queueBase + sc.queue.length < sc.queueSize

/-- So it is for the pending step if it does not turn; before a turn the queue is emptied. -/
def StepCompress.Roomy (sc : StepCompress) : Prop :=
  sc.sdir = some sc.nextStepDir → sc.HasRoom

instance (sc : StepCompress) : Decidable sc.Roomy := inferInstanceAs (Decidable (_ → _ → _ ∨ _))

theorem queueFlushLoop_storage (rounds : Nat) (sc : StepCompress)
    (run : queueFlushLoop moveClock rounds sc = .done next) : next.queueSize = sc.queueSize ∧
      (next.queueBase + next.queue.length = sc.queueBase + sc.queue.length ∨
        next.queueBase + next.queue.length = 0) := by
  induction rounds generalizing sc with
  | zero =>
    cases run
    exact ⟨rfl, Or.inl rfl⟩
  | succ rounds induction =>
    rw [queueFlushLoop] at run
    split at run
    · dsimp only at run
      split at run
      · split at run
        · cases run
          exact ⟨rfl, Or.inr rfl⟩
        next more =>
          rcases induction _ run with ⟨size, place⟩
          refine ⟨size, place.imp_left fun same => same.trans ?_⟩
          dsimp only [addMove]
          rw [length_drop]
          omega
      · cases run
    · cases run
      exact ⟨rfl, Or.inl rfl⟩

/-- A flush leaves the last place of the queue where it is, or empties the queue. -/
theorem queueFlush_room (moveClock : UInt64) (run : queueFlush sc moveClock = .done next)
    (nonempty : sc.queue ≠ []) (room : sc.queueBase + sc.queue.length < sc.queueSize) :
    next.queueBase + next.queue.length < next.queueSize := by
  rw [queueFlush, if_neg nonempty] at run
  rcases queueFlushLoop_storage _ sc run with ⟨size, place⟩
  omega

theorem makeRoom_spec (sc : StepCompress) :
    (makeRoom sc).output = sc.output ∧ (makeRoom sc).queue = sc.queue := by
  rw [makeRoom]
  split
  · split
    · exact ⟨rfl, rfl⟩
    · exact ⟨rfl, rfl⟩
  · exact ⟨rfl, rfl⟩

section

variable (aligned : Aligned sc requests)
include aligned

theorem setNextStepDir_spec (sdir : Bool) :
    ∃ next rest, setNextStepDir sc sdir = .done next ∧ Serves sc next requests rest ∧
      next.sdir = some sdir ∧ next.nextStepClock = sc.nextStepClock ∧
      next.nextStepDir = sc.nextStepDir ∧ (sc.sdir = some sdir ∧ next = sc ∨ next.queue = []) := by
  rw [setNextStepDir]
  by_cases facing : sc.sdir = some sdir
  · rw [if_pos facing]
    exact ⟨sc, requests, rfl, Serves.refl aligned, facing, rfl, rfl, Or.inl ⟨facing, rfl⟩⟩
  rcases queueFlush_all aligned with ⟨flushed, run, serves, steady⟩
  have flushedAligned := serves.aligned
  rw [if_neg facing, run, Outcome.done_bind]
  refine ⟨_, [], rfl, ?_, rfl, steady.nextStepClock, steady.nextStepDir,
    Or.inr flushedAligned.queue⟩
  rw [← append_nil requests]
  apply serves.trans
  refine ⟨[], ?_, rfl, ?_⟩
  · refine ⟨rfl, rfl, rfl, le_rfl, trivial, rfl, _, rfl, rfl, by simp [StepMessage.stepCount],
      by simp [StepCommand.Executable], ?_, ?_⟩
    · intro motion facing
      refine ⟨facing.time, ?_⟩
      intro dir turned
      rw [← Option.some.inj turned]
      change decide ((sdir ^^ flushed.invertSdir).toUInt32 ≠ 0) = (sdir ^^ flushed.invertSdir)
      cases (sdir ^^ flushed.invertSdir) <;> rfl
    · intro motion facing
      exact (append_nil _).symm
  · exact { flushedAligned with facing := by simp }

theorem Serves.push (output : next.output = sc.output)
    (queue : next.queue = sc.queue ++ [stepClock.toUInt32]) (facing : sc.sdir = some dir)
    (after : Under stepClock.toNat sc requests)
    (near : stepClock.toNat < sc.lastStepClock.toNat + 0x30000000)
    (bounded : stepClock.toNat < clockLimit) : Serves sc next (requests ++ [⟨dir, stepClock.toNat⟩])
      (requests ++ [⟨dir, stepClock.toNat⟩]) := by
  have added : clocks (requests ++ [⟨dir, stepClock.toNat⟩]) =
      clocks requests ++ [stepClock.toNat] := map_append
  have lastStepClock : next.lastStepClock = sc.lastStepClock := congrArg Output.lastStepClock output
  have sdir : next.sdir = sc.sdir := congrArg Output.sdir output
  have maxError : next.maxError = sc.maxError := congrArg Output.maxError output
  refine ⟨[], ?_, rfl, ?_, ?_, ?_, ?_, ?_, by rw [maxError]; exact aligned.maxError_le⟩
  · rw [output]
    exact Emits.refl _
  · rw [queue, aligned.queue, added, map_append]
    rfl
  · rw [lastStepClock, added, ← cons_append]
    apply pairwise_append.mpr
    refine ⟨aligned.ascending, pairwise_singleton _ _, ?_⟩
    intro clock member final last
    rw [mem_singleton.mp last]
    exact after clock member
  · rw [lastStepClock, added]
    exact forall_mem_append.mpr ⟨aligned.near, forall_mem_singleton.mpr near⟩
  · rw [lastStepClock, added, ← cons_append]
    exact forall_mem_append.mpr ⟨aligned.bounded, forall_mem_singleton.mpr bounded⟩
  · rw [sdir]
    exact forall_mem_append.mpr ⟨aligned.facing, forall_mem_singleton.mpr facing⟩

/-! ## Queueing the pending step -/

theorem Aligned.far_iff : stepClock ≥ sc.lastStepClock + clockDiffMax ↔
      sc.lastStepClock.toNat + 0x30000000 ≤ stepClock.toNat := by
  have low := aligned.bounded _ mem_cons_self
  rw [clockLimit] at low
  rw [ge_iff_le, UInt64.le_iff_toNat_le, UInt64.toNat_add_of_lt]
  · rfl
  change sc.lastStepClock.toNat + 0x30000000 < 2 ^ 64
  omega

variable (pending : Pending sc requests)
include pending

theorem queueAppendFar_spec (facing : sc.sdir = some sc.nextStepDir)
    (far : sc.nextStepClock ≥ sc.lastStepClock + clockDiffMax) (roomy : sc.HasRoom) :
    ∃ next rest, queueAppendFar sc = .done next ∧ Queues sc next requests rest := by
  have withoutPending : Aligned { sc with nextStepClock := 0 } requests := { aligned with }
  rcases queueFlush_spec (sc.nextStepClock - clockDiffMax + 1) withoutPending with
    ⟨flushed, rest, run, serves, steady, ends⟩
  have flushedAligned := serves.aligned
  have after : Under sc.nextStepClock.toNat flushed rest := serves.under pending.after
  have flushedFacing := steady.sdir.trans facing
  have room : ¬sc.nextStepClock ≥ flushed.lastStepClock + clockDiffMax →
      flushed.queueBase + flushed.queue.length < flushed.queueSize := by
    intro near
    by_cases empty : sc.queue = []
    · rw [queueFlush, if_pos empty] at run
      cases run
      exact absurd far near
    · exact queueFlush_room _ run empty ((roomy far).resolve_left empty)
  rw [aligned.far_iff] at far
  rw [queueAppendFar, run, Outcome.done_bind]
  by_cases stillFar : sc.nextStepClock ≥ flushed.lastStepClock + clockDiffMax
  · rw [if_pos stillFar]
    rw [flushedAligned.far_iff] at stillFar
    have emptied : rest = [] := by
      rcases ends with empty | late
      · exact empty
      have limit : (sc.nextStepClock - clockDiffMax + 1).toNat =
          sc.nextStepClock.toNat - 0x30000000 + 1 := by
        have bounded := pending.bounded
        rw [clockLimit] at bounded
        have difference : (sc.nextStepClock - clockDiffMax).toNat =
            sc.nextStepClock.toNat - 0x30000000 := by
          apply UInt64.toNat_sub_of_le
          rw [UInt64.le_iff_toNat_le]
          change 0x30000000 ≤ _
          omega
        rw [UInt64.toNat_add_of_lt]
        · rw [difference]
          rfl
        · rw [difference]
          change _ + 1 < _
          omega
      rw [UInt64.le_iff_toNat_le, limit] at late
      omega
    rw [emptied] at serves flushedAligned
    refine ⟨_, [], rfl, ?_, steady.nextStepClock⟩
    apply Serves.trans serves
    exact stepcompressFlushFar_serves flushedAligned flushedFacing
      (after _ mem_cons_self) pending.bounded
  · rw [if_neg stillFar, if_pos (room stillFar)]
    rw [flushedAligned.far_iff, not_le] at stillFar
    refine ⟨_, rest ++ [sc.nextRequest], rfl, ?_, steady.nextStepClock⟩
    apply Serves.trans serves
    exact Serves.push flushedAligned rfl rfl flushedFacing after stillFar pending.bounded

theorem queueAppendExtend_spec (facing : sc.sdir = some sc.nextStepDir)
    (near : sc.nextStepClock.toNat < sc.lastStepClock.toNat + 0x30000000) :
    ∃ next rest, queueAppendExtend sc = .done next ∧ Queues sc next requests rest := by
  have flush : ∃ flushed rest,
      (if sc.queue.length > 65535 + 2000 then
        queueFlush sc (sc.lastStepClock + (sc.queue.getD (sc.queue.length - 65535) 0 -
          sc.lastStepClock.toUInt32).toUInt64)
      else .done sc) = .done flushed ∧ Serves sc flushed requests rest ∧ Steady sc flushed := by
    split
    · rcases queueFlush_spec (sc.lastStepClock + (sc.queue.getD (sc.queue.length - 65535) 0 -
        sc.lastStepClock.toUInt32).toUInt64) aligned with
        ⟨flushed, rest, run, serves, steady, _⟩
      exact ⟨flushed, rest, run, serves, steady⟩
    · exact ⟨sc, requests, rfl, Serves.refl aligned, rfl, rfl, rfl⟩
  rcases flush with ⟨flushed, rest, run, serves, steady⟩
  have advances : sc.lastStepClock.toNat ≤ flushed.lastStepClock.toNat := by
    rcases serves with ⟨_, emits, _, _⟩
    exact emits.advances
  have room := makeRoom_spec flushed
  have after := serves.under pending.after
  rw [queueAppendExtend]
  dsimp only
  rw [run, Outcome.done_bind]
  refine ⟨_, rest ++ [sc.nextRequest], rfl, ?_, rfl⟩
  apply serves.trans
  apply Serves.push serves.aligned
  · exact room.1
  · change (makeRoom flushed).queue ++ [flushed.nextStepClock.toUInt32] = _
    rw [room.2, steady.nextStepClock]
  · exact steady.sdir.trans facing
  · exact after
  · exact near.trans_le (Nat.add_le_add_right advances _)
  · exact pending.bounded

theorem queueAppend_spec (roomy : sc.Roomy) :
    ∃ next rest, queueAppend sc = .done next ∧ Queues sc next requests rest := by
  have turn : ∃ turned rest,
      (if sc.sdir ≠ some sc.nextStepDir then setNextStepDir sc sc.nextStepDir
        else .done sc) = .done turned ∧ Serves sc turned requests rest ∧
        turned.sdir = some sc.nextStepDir ∧ turned.nextStepClock = sc.nextStepClock ∧
        turned.nextStepDir = sc.nextStepDir ∧
        (sc.sdir = some sc.nextStepDir ∧ turned = sc ∨ turned.queue = []) := by
    split
    · exact setNextStepDir_spec aligned sc.nextStepDir
    · rename_i facing
      have facing := not_not.mp facing
      exact ⟨sc, requests, rfl, Serves.refl aligned, facing, rfl, rfl, Or.inl ⟨facing, rfl⟩⟩
  rcases turn with ⟨turned, rest, run, serves, facing, nextStepClock, nextStepDir, kept⟩
  have room : turned.HasRoom := by
    rcases kept with ⟨faces, rfl⟩ | empty
    · exact roomy faces
    · exact fun _ => Or.inl empty
  have turnedAligned := serves.aligned
  have sameRequest : turned.nextRequest = sc.nextRequest := by
    rw [StepCompress.nextRequest, StepCompress.nextRequest, nextStepClock, nextStepDir]
  have turnedPending := pending.serves serves nextStepClock
  rw [← nextStepDir] at facing
  have whole : ∀ next left, Queues turned next rest left → Queues sc next requests left := by
    intro next left queues
    refine ⟨?_, queues.2⟩
    apply serves.trans
    rw [← sameRequest]
    exact queues.1
  rw [queueAppend, run, Outcome.done_bind]
  by_cases far : turned.nextStepClock ≥ turned.lastStepClock + clockDiffMax
  · rw [if_pos far]
    rcases queueAppendFar_spec turnedAligned turnedPending facing far room with
      ⟨next, left, done, queues⟩
    exact ⟨next, left, done, whole next left queues⟩
  rw [if_neg far]
  rw [turnedAligned.far_iff, not_le] at far
  split
  · rcases queueAppendExtend_spec turnedAligned turnedPending facing far with
      ⟨next, left, done, queues⟩
    exact ⟨next, left, done, whole next left queues⟩
  · refine ⟨_, rest ++ [turned.nextRequest], rfl, whole _ _ ⟨?_, rfl⟩⟩
    exact Serves.push turnedAligned rfl rfl facing turnedPending.after far turnedPending.bounded

end

/-! ## Operations -/

def StepCompress.pendingStep (sc : StepCompress) : Option (Bool × UInt64) :=
  if sc.nextStepClock ≠ 0 then some (sc.nextStepDir, sc.nextStepClock) else none

structure Ready (sc : StepCompress) (requests : List StepRequest) (floor : Nat) : Prop where
  aligned : Aligned sc requests
  under : Under (floor + 1) sc requests
  pending : sc.nextStepClock ≠ 0 → Pending sc requests
  taken : sc.nextStepClock.toNat ≤ floor

structure Performs (sc next : StepCompress) (requests added rest : List StepRequest)
    (pending : Option (Bool × UInt64)) (floor : Nat) : Prop where
  serves : Serves sc next (requests ++ added) rest
  pendingStep : next.pendingStep = pending
  ready : Ready next rest floor

theorem Performs.store (performs : Performs sc next requests added rest none floor)
    (after : floor < stepClock.toNat) (bounded : stepClock.toNat < clockLimit) :
    Performs sc { next with nextStepClock := stepClock, nextStepDir := sdir } requests added
      rest (some (sdir, stepClock)) stepClock.toNat := by
  have aligned := performs.ready.aligned
  have nonzero : stepClock ≠ 0 := by
    intro zero
    rw [zero] at after
    exact absurd after (Nat.not_lt_zero _)
  have later : Under stepClock.toNat next rest := by
    intro clock member
    have under := performs.ready.under clock member
    omega
  have storedAligned :
      Aligned { next with nextStepClock := stepClock, nextStepDir := sdir } rest :=
    { aligned with }
  refine ⟨?_, ?_, storedAligned, ?_, ?_, le_rfl⟩
  · rcases performs.serves with ⟨moves, emits, split, _⟩
    exact ⟨moves, emits, split, storedAligned⟩
  · exact if_pos nonzero
  · intro clock member
    exact (later clock member).trans (Nat.lt_succ_self _)
  · intro pending
    exact ⟨later, bounded⟩

theorem Performs.flush (moveClock : UInt64)
    (performs : Performs sc middle requests added queued pending floor) :
    ∃ next rest, queueFlush middle moveClock = .done next ∧
      Performs sc next requests added rest pending floor ∧
      (rest = [] ∨ moveClock ≤ next.lastStepClock) := by
  have ready := performs.ready
  rcases queueFlush_spec moveClock ready.aligned with
    ⟨next, rest, run, serves, steady, ends⟩
  refine ⟨next, rest, run, ⟨?_, ?_, serves.aligned, ?_, ?_, ?_⟩, ends⟩
  · have whole := performs.serves
    rw [← append_nil (requests ++ added)]
    apply whole.trans
    rw [append_nil]
    exact serves
  · rw [← performs.pendingStep, StepCompress.pendingStep, StepCompress.pendingStep,
      steady.nextStepClock, steady.nextStepDir]
  · exact serves.under ready.under
  · intro waiting
    rw [steady.nextStepClock] at waiting
    exact (ready.pending waiting).serves serves steady.nextStepClock
  · rw [steady.nextStepClock]
    exact ready.taken

theorem pendingStep_of_ne (waiting : sc.nextStepClock ≠ 0) :
    sc.pendingStep = some (sc.nextStepDir, sc.nextStepClock) :=
  if_pos waiting

theorem pendingStep_of_eq (idle : sc.nextStepClock = 0) : sc.pendingStep = none :=
  if_neg (not_not.mpr idle)

def StepCompress.pendingRequests (sc : StepCompress) : List StepRequest :=
  if sc.nextStepClock ≠ 0 then [sc.nextRequest] else []

theorem filterStep_flush_all (sc : StepCompress) :
    filterStep sc.sdsFilterTicks sc.pendingStep (.flush uint64Max) =
      (none, sc.pendingRequests) := by
  rw [StepCompress.pendingRequests, StepCompress.pendingStep]
  split
  · rw [filterStep, if_pos]
    · rfl
    · exact le_top
  · rfl

theorem applyAll_append (sc : StepCompress) (left right : List StepOp) :
    applyAll sc (left ++ right) = (applyAll sc left).bind fun sc => applyAll sc right := by
  induction left generalizing sc with
  | nil => rfl
  | cons op left induction =>
    rw [cons_append, applyAll, applyAll]
    cases op.apply sc with
    | done next => exact induction next
    | failed next | overran next => rfl

/-- Every operation of a run finds room. -/
def RoomyRun (sc : StepCompress) : List StepOp → Prop
  | [] => True
  | op :: ops => sc.Roomy ∧ RoomyRun (op.apply sc).state ops

instance instDecidableRoomyRun : (sc : StepCompress) → (ops : List StepOp) →
    Decidable (RoomyRun sc ops)
  | _, [] => .isTrue trivial
  | sc, op :: ops =>
    have := instDecidableRoomyRun (op.apply sc).state ops
    inferInstanceAs (Decidable (_ ∧ _))

theorem RoomyRun.of_append {ops : List StepOp} (roomy : RoomyRun sc (ops ++ [last])) :
    RoomyRun sc ops ∧ ∀ next, applyAll sc ops = .done next → next.Roomy := by
  induction ops generalizing sc with
  | nil =>
    refine ⟨trivial, fun next run => ?_⟩
    cases run
    exact roomy.1
  | cons op ops induction =>
    rcases induction roomy.2 with ⟨before, after⟩
    refine ⟨⟨roomy.1, before⟩, fun next run => ?_⟩
    rw [applyAll] at run
    cases applied : op.apply sc with
    | done middle =>
      rw [applied] at run after
      exact after next run
    | failed | overran =>
      rw [applied] at run
      cases run

structure StepCompress.IsReset (sc : StepCompress) : Prop where
  queue : sc.queue = []
  nextStepClock : sc.nextStepClock = 0
  sdir : sc.sdir = none

theorem StepCompress.IsReset.ready (reset : sc.IsReset)
    (bounded : sc.lastStepClock.toNat < clockLimit) (maxError_le : sc.maxError.toNat ≤ 8192) :
    Ready sc [] sc.lastStepClock.toNat := by
  refine ⟨⟨reset.queue, pairwise_singleton _ _, by simp [clocks], ?_, by simp, maxError_le⟩,
    ?_, ?_, ?_⟩
  · exact forall_mem_singleton.mpr bounded
  · exact forall_mem_singleton.mpr (Nat.lt_succ_self _)
  · intro pending
    exact absurd reset.nextStepClock pending
  · rw [reset.nextStepClock]
    exact zero_le

variable (ready : Ready sc requests floor)
include ready

theorem Queues.performs (queues : Queues sc next requests rest) :
    Performs sc next requests [sc.nextRequest] rest none floor := by
  have taken := ready.taken
  refine ⟨queues.1, ?_, queues.1.aligned, ?_, ?_, ?_⟩
  · rw [StepCompress.pendingStep, if_neg (not_not.mpr queues.2)]
  · apply queues.1.under
    rw [Under, clocks, map_append, ← cons_append]
    refine forall_mem_append.mpr ⟨ready.under, forall_mem_singleton.mpr ?_⟩
    change sc.nextStepClock.toNat < floor + 1
    omega
  · intro pending
    exact absurd queues.2 pending
  · rw [queues.2]
    exact zero_le

theorem Ready.performs : Performs sc sc requests [] requests sc.pendingStep floor := by
  refine ⟨?_, rfl, ready⟩
  rw [append_nil]
  exact Serves.refl ready.aligned

theorem Ready.roll_back (sdir : Bool) :
    Performs sc { sc with nextStepClock := 0, nextStepDir := sdir } requests [] requests none
      floor := by
  have cleared : Aligned { sc with nextStepClock := 0, nextStepDir := sdir } requests :=
    { ready.aligned with }
  refine ⟨?_, rfl, cleared, ready.under, ?_, zero_le⟩
  · rw [append_nil]
    exact ⟨[], Emits.refl _, rfl, cleared⟩
  · intro pending
    exact absurd rfl pending

theorem Ready.mono (raised : floor ≤ higher) : Ready sc requests higher := by
  refine ⟨ready.aligned, ?_, ready.pending, ready.taken.trans raised⟩
  intro clock member
  have under := ready.under clock member
  omega

theorem Ready.queue_pending (roomy : sc.Roomy) (waiting : sc.nextStepClock ≠ 0) :
    ∃ next rest, queueAppend sc = .done next ∧
      Performs sc next requests [sc.nextRequest] rest none floor := by
  rcases queueAppend_spec ready.aligned (ready.pending waiting) roomy with ⟨next, rest, run, queues⟩
  exact ⟨next, rest, run, queues.performs ready⟩

theorem stepcompressFlush_spec (roomy : sc.Roomy) (moveClock : UInt64) :
    ∃ next rest, stepcompressFlush sc moveClock = .done next ∧
      Performs sc next requests
        (filterStep sc.sdsFilterTicks sc.pendingStep (.flush moveClock)).2 rest
        (filterStep sc.sdsFilterTicks sc.pendingStep (.flush moveClock)).1 floor ∧
      (rest = [] ∨ moveClock ≤ next.lastStepClock) := by
  rw [stepcompressFlush]
  by_cases waiting : sc.nextStepClock ≠ 0
  · rw [pendingStep_of_ne waiting, filterStep]
    by_cases due : moveClock ≥ sc.nextStepClock
    · rcases ready.queue_pending roomy waiting with ⟨queued, rest, run, performs⟩
      rw [if_pos ⟨waiting, due⟩, run, Outcome.done_bind, if_pos due]
      exact performs.flush moveClock
    have performs := ready.performs
    rw [pendingStep_of_ne waiting] at performs
    rw [if_neg (fun both => due both.2), Outcome.done_bind, if_neg due]
    exact performs.flush moveClock
  · have performs := ready.performs
    rw [pendingStep_of_eq (not_not.mp waiting)] at performs ⊢
    rw [if_neg (fun both => waiting both.1), Outcome.done_bind]
    exact performs.flush moveClock

theorem StepOp.apply_spec (roomy : sc.Roomy) (op : StepOp) (above : op.Above floor) :
    ∃ next rest, op.apply sc = .done next ∧
      Performs sc next requests (filterStep sc.sdsFilterTicks sc.pendingStep op).2 rest
        (filterStep sc.sdsFilterTicks sc.pendingStep op).1 (op.floor floor) := by
  cases op with
  | append sdir stepClock =>
    rcases above with ⟨after, bounded⟩
    rw [StepOp.apply, stepcompressAppend]
    by_cases waiting : sc.nextStepClock ≠ 0
    · rw [if_pos waiting, pendingStep_of_ne waiting, filterStep]
      split
      · exact ⟨_, requests, rfl, (ready.mono after.le).roll_back sdir⟩
      · rcases ready.queue_pending roomy waiting with ⟨queued, rest, run, performs⟩
        rw [run, Outcome.done_bind]
        exact ⟨_, rest, rfl, performs.store after bounded⟩
    · have performs := ready.performs
      rw [pendingStep_of_eq (not_not.mp waiting)] at performs ⊢
      rw [if_neg waiting]
      exact ⟨_, requests, rfl, performs.store after bounded⟩
  | commit =>
    rw [StepOp.apply, stepcompressCommit]
    by_cases waiting : sc.nextStepClock ≠ 0
    · rw [if_pos waiting, pendingStep_of_ne waiting]
      exact ready.queue_pending roomy waiting
    have performs := ready.performs
    rw [pendingStep_of_eq (not_not.mp waiting)] at performs ⊢
    rw [if_neg waiting]
    exact ⟨sc, requests, rfl, performs⟩
  | flush moveClock =>
    rcases stepcompressFlush_spec ready roomy moveClock with ⟨next, rest, run, performs, _⟩
    exact ⟨next, rest, run, performs⟩

/-- Every sequence of operations on ascending clocks succeeds, and serves the requests
that the filter lets through. -/
theorem applyAll_spec (ops : List StepOp) (ascending : Ascending floor ops)
    (roomy : RoomyRun sc ops) :
    ∃ next rest final, applyAll sc ops = .done next ∧
      Performs sc next requests (survivors sc.sdsFilterTicks sc.pendingStep ops) rest
        (pendingAfter sc.sdsFilterTicks sc.pendingStep ops) final := by
  induction ops generalizing sc requests floor with
  | nil => exact ⟨sc, requests, floor, rfl, ready.performs⟩
  | cons op ops induction =>
    rcases op.apply_spec ready roomy.1 ascending.1 with ⟨middle, queued, run, first⟩
    have later := roomy.2
    rw [run] at later
    rcases induction first.ready ascending.2 later with ⟨next, rest, final, runRest, second⟩
    rw [first.serves.sdsFilterTicks, first.pendingStep] at second
    refine ⟨next, rest, final, ?_, ?_, second.pendingStep, second.ready⟩
    · rw [applyAll, run, Outcome.done_bind, runRest]
    · rw [survivors, ← append_assoc]
      exact first.serves.trans second.serves

theorem stepcompressFlush_all (roomy : sc.Roomy) :
    ∃ next, stepcompressFlush sc uint64Max = .done next ∧
      Performs sc next requests sc.pendingRequests [] none floor := by
  rcases stepcompressFlush_spec ready roomy uint64Max with ⟨next, rest, run, performs, ends⟩
  rw [filterStep_flush_all] at performs
  refine ⟨next, run, ?_⟩
  rcases ends with empty | late
  · rw [empty] at performs
    exact performs
  · exact absurd late performs.ready.aligned.not_late

theorem stepcompressReset_spec (roomy : sc.Roomy) (lastStepClock : UInt64) :
    ∃ flushed, stepcompressReset sc lastStepClock =
        .done { flushed with lastStepClock, sdir := none } ∧
      Performs sc flushed requests sc.pendingRequests [] none floor ∧
      ({ flushed with lastStepClock, sdir := none } : StepCompress).IsReset := by
  rcases stepcompressFlush_all ready roomy with ⟨flushed, run, performs⟩
  refine ⟨flushed, ?_, performs, performs.ready.aligned.queue, ?_, rfl⟩
  · rw [stepcompressReset, run, Outcome.done_bind]
  · by_contra pending
    exact absurd ((pendingStep_of_ne pending).symm.trans performs.pendingStep)
      (Option.some_ne_none _)

/-- Every sequence of operations on ascending clocks, followed by a full flush, serves all
steps that are not rolled back. -/
theorem applyAll_flush (ops : List StepOp) (ascending : Ascending floor ops)
    (roomy : RoomyRun sc (ops ++ [.flush uint64Max])) :
    ∃ next final, applyAll sc (ops ++ [.flush uint64Max]) = .done next ∧
      Performs sc next requests
        (survivors sc.sdsFilterTicks sc.pendingStep (ops ++ [.flush uint64Max])) [] none
        final := by
  rcases roomy.of_append with ⟨before, last⟩
  rcases applyAll_spec ready ops ascending before with ⟨middle, queued, floor, run, first⟩
  rcases stepcompressFlush_all first.ready (last middle run) with ⟨next, flushed, second⟩
  have last := filterStep_flush_all middle
  rw [first.serves.sdsFilterTicks, first.pendingStep] at last
  refine ⟨next, floor, ?_, ?_, second.pendingStep, second.ready⟩
  · rw [applyAll_append, run, Outcome.done_bind, applyAll, StepOp.apply, flushed, Outcome.done_bind]
    rfl
  · rw [survivors_append, ← append_assoc, survivors, survivors, last, append_nil]
    exact first.serves.trans second.serves

end CentauriCarbon.Stepping
