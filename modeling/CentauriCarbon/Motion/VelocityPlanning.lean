import CentauriCarbon.Motion.FlushRefinement
import Mathlib.Data.List.ModifyLast

/-! # Velocity planning over whole runs

Moves are added, lazily flushed whenever the queue says so and finally flushed. Every move
is handed over once, with one junction that fits it, and the speed never jumps, neither
inside a batch nor between two batches.
-/

namespace CentauriCarbon.Motion

open List

structure Move.Limited (move : Move) : Prop where
  accel_nonneg : 0 ≤ move.accel
  junctionDeviation_nonneg : 0 ≤ move.junctionDeviation
  nextJunction_nonneg : 0 ≤ move.nextJunctionV2

structure Move.New (move : Move) : Prop extends move.Limited where
  start_eq : move.maxStartV2 = 0
  smoothed_eq : move.maxSmoothedV2 = 0
  unset : move.junctions = []
  cruise_nonneg : 0 ≤ move.maxCruiseV2

theorem Move.make_new (accel_nonneg : 0 ≤ toolhead.maxAccel)
    (deviation_nonneg : 0 ≤ toolhead.junctionDeviation) (travelD extrudeD speed : ℚ) :
    (Move.make toolhead travelD extrudeD speed).New where
  accel_nonneg := by
    simp only [Move.make]
    split
    · exact accel_nonneg
    · norm_num
  junctionDeviation_nonneg := deviation_nonneg
  nextJunction_nonneg := by norm_num [Move.make]
  start_eq := rfl
  smoothed_eq := rfl
  unset := rfl
  cruise_nonneg := mul_self_nonneg _

/-- The queue is given a new move that can slow down over its length, and a corner with a
junction limit. -/
def LookAheadEvent.Sound : LookAheadEvent → Prop
  | .addMove move corner =>
    move.New ∧ 0 < move.smoothDeltaV2 ∧ move.smoothDeltaV2 ≤ move.deltaV2 ∧
      0 ≤ corner.extruderV2 ∧ 0 ≤ corner.sinThetaD2
  | _ => True

variable {moves : List Move} {seamV2 : ℚ} {move : Move}

theorem Move.New.sane (new : move.New) (smoothDelta_pos : 0 < move.smoothDeltaV2)
    (smoothDelta_le : move.smoothDeltaV2 ≤ move.deltaV2) : move.Sane where
  smoothDelta_pos
  smoothDelta_le
  smoothed_nonneg := new.smoothed_eq.ge
  smoothed_le := by rw [new.smoothed_eq, new.start_eq]
  start_le := new.start_eq.le.trans new.cruise_nonneg

section

variable {move prevMove : Move} {corner : Corner}

theorem cornerV2_le (move prevMove : Move) (corner : Corner) (maxStartV2 : ℚ) :
    move.cornerV2 prevMove corner maxStartV2 ≤ maxStartV2 := by
  rw [Move.cornerV2]
  split
  · exact min_le_left _ _
  · exact le_rfl

theorem cornerV2_nonneg (limited : move.Limited) (prevLimited : prevMove.Limited)
    (delta : 0 ≤ move.deltaV2) (prevDelta : 0 ≤ prevMove.deltaV2)
    (sin_nonneg : 0 ≤ corner.sinThetaD2) (start_nonneg : 0 ≤ maxStartV2) :
    0 ≤ move.cornerV2 prevMove corner maxStartV2 := by
  rw [Move.cornerV2]
  split
  next turns =>
    have deviation := limited.junctionDeviation_nonneg
    have prevDeviation := prevLimited.junctionDeviation_nonneg
    have accel := limited.accel_nonneg
    have prevAccel := prevLimited.accel_nonneg
    have radius : 0 ≤ corner.sinThetaD2 / (1 - corner.sinThetaD2) :=
      div_nonneg sin_nonneg turns.1.le
    have tangent : 0 ≤ 1 / 4 * corner.sinThetaD2 / corner.cosThetaD2 :=
      div_nonneg (mul_nonneg (by norm_num) sin_nonneg) turns.2.le
    refine le_min start_nonneg (le_min ?_ (le_min ?_ (le_min ?_ ?_))) <;> positivity
  · exact start_nonneg

theorem calcJunction_linked (new : move.New) (sane : move.Sane) (prevSane : prevMove.Sane)
    (prevLimited : prevMove.Limited) (extruder_nonneg : 0 ≤ corner.extruderV2)
    (sin_nonneg : 0 ≤ corner.sinThetaD2) : (move.calcJunction prevMove corner).Sane ∧
      prevMove.Linked (move.calcJunction prevMove corner) := by
  have prevSmoothed := prevSane.smoothed_nonneg
  have prevStart := prevSmoothed.trans prevSane.smoothed_le
  have prevCruise := prevStart.trans prevSane.start_le
  have prevSmoothDelta := prevSane.smoothDelta_pos.le
  have prevDelta := prevSmoothDelta.trans prevSane.smoothDelta_le
  have delta := sane.smoothDelta_pos.le.trans sane.smoothDelta_le
  rw [Move.calcJunction]
  split
  · refine ⟨sane, ?_, ?_, ?_⟩
    · rw [new.start_eq]
      exact prevCruise
    · rw [new.start_eq]
      exact add_nonneg prevStart prevDelta
    · rw [new.smoothed_eq, new.start_eq]
      exact (min_eq_left (add_nonneg prevSmoothed prevSmoothDelta)).symm
  dsimp only
  have start_nonneg : 0 ≤ min corner.extruderV2 (min move.maxCruiseV2
      (min prevMove.maxCruiseV2 (min prevMove.nextJunctionV2
        (prevMove.maxStartV2 + prevMove.deltaV2)))) :=
    le_min extruder_nonneg (le_min new.cruise_nonneg (le_min prevCruise
      (le_min prevLimited.nextJunction_nonneg (add_nonneg prevStart prevDelta))))
  have limit_nonneg := cornerV2_nonneg new.toLimited prevLimited delta prevDelta sin_nonneg
    start_nonneg
  have limit_le := cornerV2_le move prevMove corner
    (min corner.extruderV2 (min move.maxCruiseV2
      (min prevMove.maxCruiseV2 (min prevMove.nextJunctionV2
        (prevMove.maxStartV2 + prevMove.deltaV2)))))
  simp only [le_min_iff] at limit_le
  exact ⟨⟨sane.smoothDelta_pos, sane.smoothDelta_le,
    le_min limit_nonneg (add_nonneg prevSmoothed prevSmoothDelta), min_le_left _ _,
    limit_le.2.1⟩, ⟨limit_le.2.2.1, limit_le.2.2.2.2, rfl⟩⟩

def Move.request (move : Move) : Move :=
  { move with maxStartV2 := 0, maxSmoothedV2 := 0, nextJunctionV2 := 0, junctions := [] }

theorem calcJunction_frame (move prevMove : Move) (corner : Corner) :
    ∃ maxStartV2 maxSmoothedV2,
      move.calcJunction prevMove corner = { move with maxStartV2, maxSmoothedV2 } := by
  rw [Move.calcJunction]
  split <;> exact ⟨_, _, rfl⟩

end

/-! ## The queue between two operations -/

theorem Plannable.sane (plannable : Plannable moves) : ∀ move ∈ moves, Move.Sane move := by
  induction moves with
  | nil => simp
  | cons move moves induction =>
    exact forall_mem_cons.mpr ⟨plannable.1, induction plannable.2.2⟩

theorem plannable_append_singleton (plannable : Plannable (moves ++ [prevMove])) (sane : move.Sane)
    (linked : prevMove.Linked move) : Plannable (moves ++ [prevMove] ++ [move]) := by
  induction moves with
  | nil =>
    refine ⟨plannable.1, ?_, sane, by simp, trivial⟩
    rintro next ⟨⟩
    exact linked
  | cons first moves induction =>
    refine ⟨plannable.1, ?_, induction plannable.2.2⟩
    have ahead := plannable.2.1
    cases moves <;> exact ahead

variable (lookahead : LookAheadQueue) {before after : List Move}

theorem Plannable.of_append (plannable : Plannable (before ++ after)) : Plannable after := by
  induction before with
  | nil => exact plannable
  | cons move before induction => exact induction plannable.2.2

structure Queued (queue : List Move) (seamV2 : ℚ) : Prop where
  plannable : Plannable queue
  anchored : queue ≠ [] → Anchored queue seamV2
  rests : queue = [] → seamV2 = 0
  fresh : ∀ move ∈ queue, Move.junctions move = [] ∧ Move.Limited move

theorem queued_nil : Queued [] 0 where
  plannable := trivial
  anchored := fun nonempty => absurd rfl nonempty
  rests := fun _ => rfl
  fresh := by simp

namespace Queued

variable {queue : List Move}

variable (queued : Queued queue seamV2)
include queued

theorem unset (member : move ∈ queue) : move.junctions = [] := (queued.fresh move member).1

theorem good : Sweep.Good [] queue (Sweep.ofMoves queue) := by
  rcases Sweep.ofMoves_good queued.plannable with ⟨waiting, settled, rfl, good⟩
  have empty : waiting = [] := by
    by_cases none : waiting ++ settled = []
    · exact (append_eq_nil_iff.mp none).1
    · have anchored := (queued.anchored none [] (by simp)).1
      rw [append_nil] at anchored
      exact good.delayed_eq_nil_iff.mp anchored
  rw [empty] at good ⊢
  exact good

theorem settled : (Sweep.ofMoves queue).delayed = [] := queued.good.delayed_eq_nil_iff.mpr rfl

theorem planned : Planned 0 queue (Sweep.ofMoves queue).plan := queued.good.planned

theorem planStart_eq : planStart 0 (Sweep.ofMoves queue).plan = seamV2 := by
  by_cases empty : queue = []
  · rw [queued.rests empty, empty]
    rfl
  have anchored := (queued.anchored empty [] (by simp)).2
  rw [append_nil] at anchored
  rw [(queued.good.settled_ahead rfl).2.1]
  exact anchored

theorem addMove {prevMove move : Move} (last : queue.getLast? = some prevMove)
    (sound : LookAheadEvent.Sound (.addMove move corner)) :
    Queued (queue ++ [move.calcJunction prevMove corner]) seamV2 := by
  rcases sound with ⟨new, smoothDelta_pos, smoothDelta_le, extruder_nonneg, sin_nonneg⟩
  rcases getLast?_eq_some_iff.mp last with ⟨moves, rfl⟩
  have member : prevMove ∈ moves ++ [prevMove] := by simp
  have linked := calcJunction_linked new (new.sane smoothDelta_pos smoothDelta_le)
    (queued.plannable.sane prevMove member) (queued.fresh prevMove member).2
    extruder_nonneg sin_nonneg
  constructor
  · exact plannable_append_singleton queued.plannable linked.1 linked.2
  · intro _
    exact (queued.anchored (by simp)).append (by simpa using linked.1)
  · simp
  · rcases calcJunction_frame move prevMove corner with ⟨_, _, same⟩
    rw [forall_mem_append, forall_mem_singleton, same]
    exact ⟨queued.fresh, new.unset, { new.toLimited with }⟩

end Queued

theorem queued_singleton (sound : LookAheadEvent.Sound (.addMove move corner)) :
    Queued [move] 0 := by
  rcases sound with ⟨new, smoothDelta_pos, smoothDelta_le, -, -⟩
  have sane := new.sane smoothDelta_pos smoothDelta_le
  exact
    { plannable := ⟨sane, by simp, trivial⟩
      anchored := fun _ => anchored_of_rest sane new.start_eq
      rests := fun _ => rfl
      fresh := forall_mem_singleton.mpr ⟨new.unset, new.toLimited⟩ }

/-! ## Flushing -/

theorem ofMoves_plan_suffix (before after : List Move) :
    (Sweep.ofMoves after).plan <:+ (Sweep.ofMoves (before ++ after)).plan := by
  induction before with
  | nil => exact suffix_refl _
  | cons move before induction =>
    apply induction.trans
    rw [cons_append, Sweep.ofMoves, Sweep.step]
    split
    · exact (suffix_append _ _).trans (suffix_cons _ _)
    · exact suffix_refl _

/-- The moves behind the end of a lazy flush, and the plan of those in front of it. -/
theorem Queued.cut (queued : Queued (before ++ move :: after) seamV2)
    (cuts : (Sweep.ofMoves after).Cuts move) : ∃ nextV2, Queued (move :: after) nextV2 ∧
      Planned nextV2 before ((Sweep.ofMoves (before ++ move :: after)).plan.take before.length) ∧
      planStart nextV2
        ((Sweep.ofMoves (before ++ move :: after)).plan.take before.length) = seamV2 := by
  have plannable := queued.plannable.of_append
  have retained : Queued (move :: after) (min (Sweep.ofMoves (move :: after)).nextEndV2
      (Sweep.ofMoves (move :: after)).peakCruiseV2) :=
    { plannable
      anchored := fun _ => anchored_of_cuts cuts plannable
      rests := by simp
      fresh := fun other member => queued.fresh other (mem_append_right _ member) }
  rcases ofMoves_plan_suffix before (move :: after) with ⟨front, split⟩
  have frontLength : front.length = before.length := by
    have whole := queued.planned.length_eq
    have rest := retained.planned.length_eq
    rw [← split, length_append, rest, length_append] at whole
    omega
  have seam : entryOf Junction.startV2 0 (Sweep.ofMoves (move :: after)).plan = _ :=
    retained.planStart_eq
  have start : entryOf Junction.startV2 0 _ = seamV2 := queued.planStart_eq
  have planned := queued.planned.take before.length
  rw [← split, entryOf_append, seam] at start
  rw [take_left, ← split, ← frontLength, drop_left, take_left, seam] at planned
  rw [← split, ← frontLength, take_left]
  exact ⟨_, retained, planned, start⟩

theorem ofMoves_limitNextJunctionSpeed (moves more : List Move) (move : Move) (speed : ℚ) :
    Sweep.ofMoves (moves ++ move.limitNextJunctionSpeed speed :: more) =
      Sweep.ofMoves (moves ++ move :: more) := by
  induction moves with
  | nil => rfl
  | cons first moves induction =>
    rw [cons_append, cons_append, Sweep.ofMoves, Sweep.ofMoves, induction]

theorem plannable_limitNextJunctionSpeed (plannable : Plannable (moves ++ [move])) :
    Plannable (moves ++ [move.limitNextJunctionSpeed speed]) := by
  induction moves with
  | nil =>
    exact ⟨{ plannable.1 with }, by simp, trivial⟩
  | cons first moves induction =>
    refine ⟨plannable.1, ?_, induction plannable.2.2⟩
    have ahead := plannable.2.1
    cases moves with
    | nil =>
      rintro next ⟨⟩
      exact { ahead move rfl with }
    | cons second moves => exact ahead

theorem Queued.limitNextJunctionSpeed {queue : List Move} (queued : Queued queue seamV2)
    (speed : ℚ) :
    Queued (queue.modifyLast fun move => move.limitNextJunctionSpeed speed) seamV2 := by
  rcases eq_nil_or_concat queue with rfl | ⟨moves, move, rfl⟩
  · exact queued
  rw [concat_eq_append] at queued ⊢
  rw [modifyLast_concat]
  constructor
  · exact plannable_limitNextJunctionSpeed queued.plannable
  · intro _ more sane
    rw [append_assoc, singleton_append, ofMoves_limitNextJunctionSpeed]
    have anchored := queued.anchored (by simp) more sane
    rw [append_assoc, singleton_append] at anchored
    exact anchored
  · simp
  · have fresh := queued.fresh
    rw [forall_mem_append, forall_mem_singleton] at fresh ⊢
    rcases fresh with ⟨front, unset, limited⟩
    exact ⟨front, unset, limited.accel_nonneg, limited.junctionDeviation_nonneg,
      le_min limited.nextJunction_nonneg (mul_self_nonneg _)⟩

theorem limitNextJunctionSpeed_request (queue : List Move) (speed : ℚ) :
    (queue.modifyLast fun move => move.limitNextJunctionSpeed speed).map Move.request =
      queue.map Move.request := by
  rcases eq_nil_or_concat queue with rfl | ⟨moves, move, rfl⟩
  · rfl
  · rw [concat_eq_append, modifyLast_concat, map_append, map_append]
    rfl

structure HandsOver (asked : List Move) (seamV2 : ℚ)
    (result : LookAheadQueue × List Move) (batch : List Move) (plan : List Junction)
    (nextV2 : ℚ) : Prop where
  handed : result.2 = zipWith Move.setJunction batch plan
  requests : (batch ++ result.1.queue).map Move.request = asked.map Move.request
  planned : Planned nextV2 batch plan
  starts : planStart nextV2 plan = seamV2
  unset : ∀ move ∈ batch, Move.junctions move = []
  queued : Queued result.1.queue nextV2

theorem Queued.handsOver_none (queued : Queued lookahead.queue seamV2)
    (requests : lookahead.queue.map Move.request = asked.map Move.request) :
    HandsOver asked seamV2 (lookahead, []) [] [] seamV2 where
  handed := rfl
  requests
  planned := .nil
  starts := rfl
  unset := by simp
  queued

theorem Queued.flush (queued : Queued lookahead.queue seamV2) (lazy : Bool) : ∃ batch plan nextV2,
      HandsOver lookahead.queue seamV2 (lookahead.flush lazy) batch plan nextV2 := by
  have length_eq := queued.planned.length_eq
  cases lazy with
  | false =>
    rw [flush_eager queued.settled length_eq]
    exact ⟨lookahead.queue, _, 0,
      { handed := rfl
        requests := by rw [append_nil]
        planned := queued.planned
        starts := queued.planStart_eq
        unset := fun _ => queued.unset
        queued := queued_nil }⟩
  | true =>
    rcases flush_lazy queued.settled length_eq with
      kept | ⟨before, move, after, split, cuts, flushed⟩
    · rw [kept]
      exact ⟨[], [], seamV2, Queued.handsOver_none ⟨_, lookaheadFlushTime⟩ queued rfl⟩
    have whole := queued
    rw [split] at whole
    rcases whole.cut cuts with ⟨nextV2, retained, planned, starts⟩
    rw [flushed, split]
    exact ⟨before, _, nextV2,
      { handed := rfl
        requests := rfl
        planned
        starts
        unset := fun _ member => whole.unset (mem_append_left _ member)
        queued := retained }⟩

theorem Queued.addMove_handsOver {lookahead : LookAheadQueue}
    (queued : Queued lookahead.queue seamV2) (sound : LookAheadEvent.Sound (.addMove move corner)) :
    ∃ batch plan nextV2, HandsOver (lookahead.queue ++ [move]) seamV2
      (lookahead.addMove move corner) batch plan nextV2 := by
  rw [LookAheadQueue.addMove]
  cases last : lookahead.queue.getLast? with
  | none =>
    have empty := getLast?_eq_none_iff.mp last
    rw [queued.rests empty, empty]
    exact ⟨[], [], 0, Queued.handsOver_none _ (queued_singleton sound) rfl⟩
  | some prevMove =>
    have added := queued.addMove last sound
    have requests : (lookahead.queue ++ [move.calcJunction prevMove corner]).map
        Move.request = (lookahead.queue ++ [move]).map Move.request := by
      rcases calcJunction_frame move prevMove corner with ⟨_, _, same⟩
      rw [map_append, map_append, same]
      rfl
    dsimp only
    split
    · rcases Queued.flush ⟨_, lookahead.junctionFlush - move.minMoveT⟩ added true with
        ⟨batch, plan, nextV2, handsOver⟩
      refine ⟨batch, plan, nextV2, { handsOver with requests := ?_ }⟩
      rw [handsOver.requests]
      exact requests
    · exact ⟨[], [], seamV2, Queued.handsOver_none _ added requests⟩

def addedMoves (events : List LookAheadEvent) : List Move :=
  events.filterMap fun
    | .addMove move _ => some move
    | _ => none

structure Planner.Tracks (planner : Planner) (added handed : List Move)
    (plan : List Junction) (seamV2 : ℚ) : Prop where
  processed : planner.processed = zipWith Move.setJunction handed plan
  planned : Planned seamV2 handed plan
  unset : ∀ move ∈ handed, Move.junctions move = []
  queued : Queued planner.lookahead.queue seamV2
  requests : (handed ++ planner.lookahead.queue).map Move.request = added.map Move.request

section

variable {planner : Planner}

variable (tracks : planner.Tracks added handed plan seamV2)
include tracks

theorem Planner.Tracks.process {moves batch : List Move}
    (handsOver :
      HandsOver (planner.lookahead.queue ++ moves) seamV2 result batch batchPlan nextV2) :
    (planner.process result).Tracks (added ++ moves) (handed ++ batch) (plan ++ batchPlan)
      nextV2 where
  processed := by
    rw [Planner.process, tracks.processed, handsOver.handed,
      zipWith_append tracks.planned.length_eq.symm]
  planned := by
    have planned := tracks.planned
    rw [← handsOver.starts] at planned
    exact planned.append handsOver.planned
  unset := forall_mem_append.mpr ⟨tracks.unset, handsOver.unset⟩
  queued := handsOver.queued
  requests := by
    rw [Planner.process, append_assoc, map_append, handsOver.requests,
      ← map_append, ← append_assoc, map_append, tracks.requests, map_append]

theorem Planner.Tracks.step {event : LookAheadEvent} (sound : event.Sound) : ∃ handed plan seamV2,
      (planner.step event).Tracks (added ++ addedMoves [event]) handed plan seamV2 := by
  have queued := tracks.queued
  have quiet : ∀ next : LookAheadQueue, Queued next.queue seamV2 →
      next.queue.map Move.request = planner.lookahead.queue.map Move.request →
      (Planner.mk next planner.processed).Tracks (added ++ []) handed plan seamV2 := by
    intro next nextQueued requests
    rw [append_nil]
    refine { tracks with queued := nextQueued, requests := ?_ }
    rw [map_append, requests, ← map_append]
    exact tracks.requests
  cases event with
  | addMove move corner =>
    rcases queued.addMove_handsOver sound with ⟨batch, batchPlan, nextV2, handsOver⟩
    exact ⟨_, _, _, tracks.process handsOver⟩
  | flush =>
    rcases queued.flush _ false with ⟨batch, batchPlan, nextV2, handsOver⟩
    rw [← append_nil planner.lookahead.queue] at handsOver
    exact ⟨_, _, _, tracks.process handsOver⟩
  | setFlushTime flushTime => exact ⟨_, _, _, quiet _ queued rfl⟩
  | limitNextJunctionSpeed speed =>
    exact ⟨_, _, _, quiet _ (queued.limitNextJunctionSpeed speed)
      (limitNextJunctionSpeed_request _ speed)⟩

theorem Planner.Tracks.run (sound : ∀ event ∈ events, LookAheadEvent.Sound event) :
    ∃ handed plan seamV2,
      (planner.run events).Tracks (added ++ addedMoves events) handed plan seamV2 := by
  induction events generalizing planner added handed plan seamV2 with
  | nil =>
    refine ⟨handed, plan, seamV2, ?_⟩
    rw [addedMoves, filterMap_nil, append_nil]
    exact tracks
  | cons event events induction =>
    rcases tracks.step (sound event mem_cons_self) with
      ⟨handed, plan, seamV2, stepped⟩
    rcases induction stepped fun other member =>
      sound other (mem_cons_of_mem _ member) with ⟨handed, plan, seamV2, ran⟩
    refine ⟨handed, plan, seamV2, ?_⟩
    have split : addedMoves (event :: events) = addedMoves [event] ++ addedMoves events := by
      rw [addedMoves, ← singleton_append, filterMap_append]
      rfl
    rw [split, ← append_assoc]
    exact ran

end

theorem Planner.make_tracks : Planner.make.Tracks [] [] [] 0 where
  processed := rfl
  planned := .nil
  unset := by simp
  queued := queued_nil
  requests := rfl

/-! ## Results -/

theorem request_setJunction (moves : List Move) (plan : List Junction)
    (length_eq : plan.length = moves.length) :
    (zipWith Move.setJunction moves plan).map Move.request = moves.map Move.request := by
  induction moves generalizing plan with
  | nil => rfl
  | cons move moves induction =>
    cases plan with
    | nil => simp at length_eq
    | cons junction plan =>
      rw [zipWith_cons_cons, map_cons, map_cons, induction plan (Nat.succ_inj.mp length_eq)]
      rfl

theorem junctions_setJunction (length_eq : plan.length = moves.length)
    (unset : ∀ move ∈ moves, Move.junctions move = []) :
    (zipWith Move.setJunction moves plan).map Move.junctions =
      plan.map fun junction => [junction] := by
  induction moves generalizing plan with
  | nil =>
    rw [length_eq_zero_iff.mp length_eq]
    rfl
  | cons move moves induction =>
    cases plan with
    | nil => simp at length_eq
    | cons junction plan =>
      rw [forall_mem_cons] at unset
      rw [zipWith_cons_cons, map_cons, map_cons,
        induction (Nat.succ_inj.mp length_eq) unset.2, Move.setJunction, unset.1]
      rfl

/-- Whatever has been queued, `flush(false)` sets one junction on each move of the queue
and hands them all over. The junctions fit their moves, agree on the speed between two
moves, start from rest if the first move has to and end at rest. -/
theorem flush_plans_queue (events : List LookAheadEvent)
    (sound : ∀ event ∈ events, LookAheadEvent.Sound event) :
    let lookahead := (Planner.make.run events).lookahead
    ∃ plan : List Junction,
      (lookahead.flush false).1.queue = [] ∧
      (lookahead.flush false).2 = zipWith Move.setJunction lookahead.queue plan ∧
      plan.length = lookahead.queue.length ∧
      (∀ move ∈ lookahead.queue, move.junctions = []) ∧
      (∀ (i : ℕ) (move : Move) (junction : Junction), lookahead.queue[i]? = some move →
        plan[i]? = some junction → Junction.Fits move junction) ∧
      (∀ (i : ℕ) (junction next : Junction), plan[i]? = some junction →
        plan[i + 1]? = some next → junction.endV2 = next.startV2) ∧
      (∀ (move : Move) (junction : Junction), lookahead.queue[0]? = some move →
        plan[0]? = some junction → move.maxStartV2 = 0 → junction.startV2 = 0) ∧
      (∀ junction : Junction, plan.getLast? = some junction → junction.endV2 = 0) := by
  intro lookahead
  rcases Planner.make_tracks.run sound with ⟨handed, handedPlan, seamV2, tracks⟩
  have queued : Queued lookahead.queue seamV2 := tracks.queued
  have planned := queued.planned
  have flushed := flush_eager queued.settled planned.length_eq
  refine ⟨(Sweep.ofMoves lookahead.queue).plan, ?_, ?_, planned.length_eq, fun _ => queued.unset,
    fun i move junction moveAt junctionAt => planned.fits moveAt junctionAt,
    fun i junction next junctionAt nextAt => planned.exit_eq_entry junctionAt nextAt, ?_,
    fun junction last => planned.exit_last last⟩
  · rw [flushed]
  · rw [flushed]
  · intro move junction moveAt junctionAt rest
    have fits := planned.fits moveAt junctionAt
    exact le_antisymm (fits.start_le.trans rest.le) fits.start_nonneg

def cornerRun : List LookAheadEvent :=
  let move := Move.make ⟨100, 1000, 500, 1 / 100⟩ 1 0 100
  let corner : Corner := ⟨10000, 9 / 10, 1 / 2⟩
  [.addMove move corner, .addMove move corner, .setFlushTime 0, .addMove move corner]

theorem cornerRun_sound : ∀ event ∈ cornerRun, LookAheadEvent.Sound event := by
  have new : (Move.make ⟨100, 1000, 500, 1 / 100⟩ 1 0 100).New :=
    Move.make_new (by decide) (by decide +kernel) 1 0 100
  have sound : LookAheadEvent.Sound (.addMove (Move.make ⟨100, 1000, 500, 1 / 100⟩ 1 0 100)
      ⟨10000, 9 / 10, 1 / 2⟩) :=
    ⟨new, by decide +kernel, by decide +kernel, by decide +kernel, by decide +kernel⟩
  simp only [cornerRun, forall_mem_cons]
  exact ⟨sound, sound, trivial, sound, by simp⟩

/-- The two moves left in the queue after the lazy flush. -/
theorem flush_plans_corner_run :
    ∃ plan : List Junction, plan.length = 2 ∧
      ((Planner.make.run cornerRun).lookahead.flush false).2 =
        zipWith Move.setJunction (Planner.make.run cornerRun).lookahead.queue plan := by
  rcases flush_plans_queue cornerRun cornerRun_sound with ⟨plan, -, handed, length_eq, -⟩
  have two : (Planner.make.run cornerRun).lookahead.queue.length = 2 := by decide +kernel
  exact ⟨plan, length_eq.trans two, handed⟩

/-- Whenever lazy flushes happen, every added move is handed over once and in order, with
one junction, and the speed at the end of each move is the speed at the start of the next
one handed over, whether they are in one batch or in two. -/
theorem lazy_flush_keeps_seams (events : List LookAheadEvent)
    (sound : ∀ event ∈ events, LookAheadEvent.Sound event) :
    let final := Planner.make.run (events ++ [.flush])
    final.lookahead.queue = [] ∧
      final.processed.map Move.request = (addedMoves events).map Move.request ∧
      ∃ plan : List Junction,
        final.processed.map Move.junctions = plan.map (fun junction => [junction]) ∧
        ∀ (i : ℕ) (junction next : Junction), plan[i]? = some junction →
          plan[i + 1]? = some next → junction.endV2 = next.startV2 := by
  intro final
  have empty : final.lookahead.queue = [] := by
    rcases Planner.make_tracks.run sound with ⟨handed, plan, seamV2, tracks⟩
    have flushed := flush_eager tracks.queued.settled tracks.queued.planned.length_eq
    have last : final = (Planner.make.run events).step .flush := foldl_append
    rw [last, Planner.step, Planner.process, flushed]
  have allSound : ∀ event ∈ events ++ [.flush], LookAheadEvent.Sound event :=
    forall_mem_append.mpr ⟨sound, by simp [LookAheadEvent.Sound]⟩
  rcases Planner.make_tracks.run allSound with ⟨handed, plan, seamV2, tracks⟩
  have length_eq := tracks.planned.length_eq
  have processed : final.processed = zipWith Move.setJunction handed plan := tracks.processed
  have requests : (handed ++ final.lookahead.queue).map Move.request =
      (addedMoves (events ++ [.flush])).map Move.request := tracks.requests
  have added : addedMoves (events ++ [.flush]) = addedMoves events := by
    rw [addedMoves, filterMap_append]
    exact append_nil _
  rw [empty, append_nil, added] at requests
  rw [processed, request_setJunction handed plan length_eq,
    junctions_setJunction length_eq tracks.unset]
  exact ⟨empty, requests, plan, rfl,
    fun i junction next junctionAt nextAt => tracks.planned.exit_eq_entry junctionAt nextAt⟩

/-- The seam of the lazy flush is at the squared speed 90. -/
theorem lazy_flush_keeps_corner_seam :
    (Planner.make.run cornerRun).processed.map Move.junctions = [[⟨0, 545, 90⟩]] ∧
      ∃ plan : List Junction,
        (Planner.make.run (cornerRun ++ [.flush])).processed.map Move.junctions =
          plan.map (fun junction => [junction]) ∧
        ∀ (i : ℕ) (junction next : Junction), plan[i]? = some junction →
          plan[i + 1]? = some next → junction.endV2 = next.startV2 := by
  rcases lazy_flush_keeps_seams cornerRun cornerRun_sound with ⟨-, -, seams⟩
  exact ⟨by decide +kernel, seams⟩

end CentauriCarbon.Motion
