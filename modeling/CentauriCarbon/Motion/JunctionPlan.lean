import CentauriCarbon.Foundation.JoinedSegments
import CentauriCarbon.Motion.LookAhead
import Mathlib.Tactic.Linarith

/-! # The plan behind a backward pass

`sweep` is the loop of `flush` without places in the queue and without laziness: it keeps
the delayed stretch, the running speeds and the junctions of all other moves. The
junctions it finds fit their moves and agree on the speed between two moves.
-/

namespace CentauriCarbon.Motion

/-! ## Plans -/

structure Junction.Fits (move : Move) (junction : Junction) : Prop where
  start_nonneg : 0 ≤ junction.startV2
  start_le_cruise : junction.startV2 ≤ junction.cruiseV2
  end_nonneg : 0 ≤ junction.endV2
  end_le_cruise : junction.endV2 ≤ junction.cruiseV2
  cruise_le : junction.cruiseV2 ≤ move.maxCruiseV2
  start_le : junction.startV2 ≤ move.maxStartV2
  distance : (junction.cruiseV2 - junction.startV2) +
    (junction.cruiseV2 - junction.endV2) ≤ move.deltaV2

abbrev planStart (finalV2 : ℚ) (plan : List Junction) : ℚ := entryOf Junction.startV2 finalV2 plan

/-- Junctions for the moves, without a jump in speed, that end at `finalV2`. -/
abbrev Planned (finalV2 : ℚ) (moves : List Move) (plan : List Junction) : Prop :=
  Joined Junction.startV2 Junction.endV2 Junction.Fits finalV2 moves plan

theorem planStart_nonneg (planned : Planned 0 moves plan) : 0 ≤ planStart 0 plan := by
  cases planned with
  | nil => exact le_rfl
  | cons fits _ _ => exact fits.start_nonneg

/-- Start, cruise and end speeds cut off at the cruise speed fit the move if it is long
enough for the difference. -/
theorem Junction.fits_of_cut {move : Move} {startV2 cruiseV2 endV2 : ℚ} (start_nonneg : 0 ≤ startV2)
    (cruise_nonneg : 0 ≤ cruiseV2) (end_nonneg : 0 ≤ endV2) (delta_nonneg : 0 ≤ move.deltaV2)
    (cruise_le : cruiseV2 ≤ move.maxCruiseV2) (start_le : startV2 ≤ move.maxStartV2)
    (speedsUp : startV2 ≤ endV2 + move.deltaV2)
    (slowsDown : min endV2 cruiseV2 ≤ startV2 + move.deltaV2)
    (turns : cruiseV2 ≤ (startV2 + (endV2 + move.deltaV2)) / 2) :
    Junction.Fits move ⟨min startV2 cruiseV2, cruiseV2, min endV2 cruiseV2⟩ where
  start_nonneg := le_min start_nonneg cruise_nonneg
  start_le_cruise := min_le_right _ _
  end_nonneg := le_min end_nonneg cruise_nonneg
  end_le_cruise := min_le_right _ _
  cruise_le
  start_le := (min_le_left _ _).trans start_le
  distance := by
    rcases le_total startV2 cruiseV2 with belowStart | aboveStart <;>
      rcases le_total endV2 cruiseV2 with belowEnd | aboveEnd
    · rw [min_eq_left belowStart, min_eq_left belowEnd]
      linarith
    · rw [min_eq_right aboveEnd] at slowsDown
      rw [min_eq_left belowStart, min_eq_right aboveEnd]
      linarith
    · rw [min_eq_right aboveStart, min_eq_left belowEnd]
      linarith
    · rw [min_eq_right aboveStart, min_eq_right aboveEnd]
      linarith

structure Move.Sane (move : Move) : Prop where
  smoothDelta_pos : 0 < move.smoothDeltaV2
  smoothDelta_le : move.smoothDeltaV2 ≤ move.deltaV2
  smoothed_nonneg : 0 ≤ move.maxSmoothedV2
  smoothed_le : move.maxSmoothedV2 ≤ move.maxStartV2
  start_le : move.maxStartV2 ≤ move.maxCruiseV2

structure Move.Linked (prevMove move : Move) : Prop where
  start_le_cruise : move.maxStartV2 ≤ prevMove.maxCruiseV2
  start_le_reach : move.maxStartV2 ≤ prevMove.maxStartV2 + prevMove.deltaV2
  smoothed_eq : move.maxSmoothedV2 =
    min move.maxStartV2 (prevMove.maxSmoothedV2 + prevMove.smoothDeltaV2)

def Plannable : List Move → Prop
  | [] => True
  | move :: moves =>
    move.Sane ∧ (∀ next ∈ moves.head?, move.Linked next) ∧ Plannable moves

structure Span where
  startV2 : ℚ
  endV2 : ℚ

structure Span.Fits (floorV2 : ℚ) (move : Move) (span : Span) : Prop where
  floor_le : floorV2 ≤ span.startV2
  start_le : span.startV2 ≤ move.maxStartV2
  start_le_cruise : span.startV2 ≤ move.maxCruiseV2
  start_le_reach : span.startV2 ≤ span.endV2 + move.deltaV2
  end_nonneg : 0 ≤ span.endV2
  delta_nonneg : 0 ≤ move.deltaV2

structure Sweep extends Speeds where
  delayed : List Span
  plan : List Junction

namespace Sweep

def spread (mcV2 : ℚ) : List Span → List Junction
  | [] => []
  | span :: spans =>
    let mcV2 := min mcV2 span.startV2
    ⟨min span.startV2 mcV2, mcV2, min span.endV2 mcV2⟩ :: spread mcV2 spans

section

variable (sweep : Sweep) (move : Move)

abbrev Peaks : Prop :=
  sweep.smoothedV2 move + move.smoothDeltaV2 > sweep.nextSmoothedV2 ∨ sweep.delayed ≠ []

def peakV2 : ℚ :=
  if sweep.Peaks move then sweep.newPeakV2 move else sweep.peakCruiseV2

def step : Sweep :=
  if sweep.Settles move then
    { delayed := []
      nextEndV2 := sweep.startV2 move
      nextSmoothedV2 := sweep.smoothedV2 move
      peakCruiseV2 := sweep.peakV2 move
      plan := sweep.junction move (sweep.peakV2 move) ::
        (spread (sweep.peakV2 move) sweep.delayed ++ sweep.plan) }
  else
    { delayed := ⟨sweep.startV2 move, sweep.nextEndV2⟩ :: sweep.delayed
      nextEndV2 := sweep.startV2 move
      nextSmoothedV2 := sweep.smoothedV2 move
      peakCruiseV2 := sweep.peakCruiseV2
      plan := sweep.plan }

end

def start : Sweep := ⟨⟨0, 0, 0⟩, [], []⟩

def ofMoves : List Move → Sweep
  | [] => start
  | move :: moves => (ofMoves moves).step move

section

variable {sweep : Sweep}

theorem step_nextEndV2 : (sweep.step move).nextEndV2 = sweep.startV2 move := by
  rw [step]
  split <;> rfl

theorem step_nextSmoothedV2 : (sweep.step move).nextSmoothedV2 = sweep.smoothedV2 move := by
  rw [step]
  split <;> rfl

theorem smoothedV2_eq_of_settles (settles : sweep.Settles move) :
    sweep.smoothedV2 move = move.maxSmoothedV2 := by
  rcases min_choice move.maxSmoothedV2 (sweep.reachableSmoothedV2 move) with
    limited | reached
  · exact limited
  · exact absurd reached settles.ne

theorem smoothedV2_eq_of_not_settles (delays : ¬sweep.Settles move) :
    sweep.smoothedV2 move = sweep.reachableSmoothedV2 move :=
  le_antisymm (min_le_right _ _) (not_lt.mp delays)

end

theorem planStart_spread (floor_le : floorV2 ≤ mcV2) (spans : List Span) :
    planStart floorV2 (spread mcV2 spans) = min mcV2 (entryOf Span.startV2 floorV2 spans) := by
  cases spans with
  | nil => exact (min_eq_right floor_le).symm
  | cons span spans => exact min_eq_right (min_le_right _ _)

theorem spread_planned (floor_nonneg : 0 ≤ floorV2) (floor_le : floorV2 ≤ mcV2)
    (delayed : Joined Span.startV2 Span.endV2 (Span.Fits floorV2) floorV2 moves spans) :
    Planned floorV2 moves (spread mcV2 spans) := by
  induction delayed generalizing mcV2 with
  | nil => exact .nil
  | @cons move span moves spans fits meets rest induction =>
    have above : floorV2 ≤ min mcV2 span.startV2 := le_min floor_le fits.floor_le
    have below : min mcV2 span.startV2 ≤ span.startV2 := min_le_right _ _
    have reach := fits.start_le_reach
    have delta := fits.delta_nonneg
    apply Joined.cons _ _ (induction above)
    · apply Junction.fits_of_cut
      · exact floor_nonneg.trans fits.floor_le
      · exact floor_nonneg.trans above
      · exact fits.end_nonneg
      · exact delta
      · exact below.trans fits.start_le_cruise
      · exact fits.start_le
      · exact reach
      · have cut := min_le_right span.endV2 (min mcV2 span.startV2)
        linarith
      · linarith
    · have starts := planStart_spread above spans
      rw [← meets, min_comm _ span.endV2] at starts
      exact starts.symm

/-! ## What a sweep keeps -/

structure Good (waiting settled : List Move) (sweep : Sweep) : Prop where
  delayed : Joined Span.startV2 Span.endV2 (Span.Fits (planStart 0 sweep.plan))
    (planStart 0 sweep.plan) waiting sweep.delayed
  planned : Planned 0 settled sweep.plan
  smoothed_nonneg : 0 ≤ sweep.nextSmoothedV2
  smoothed_le : sweep.nextSmoothedV2 ≤ sweep.nextEndV2
  peak_nonneg : 0 ≤ sweep.peakCruiseV2
  none_ahead : waiting ++ settled = [] → sweep.nextEndV2 = 0
  ahead : ∀ next ∈ (waiting ++ settled).head?,
    sweep.nextEndV2 ≤ next.maxStartV2 ∧ sweep.nextSmoothedV2 ≤ next.maxSmoothedV2
  -- No move is delayed: the next move starts at the lower of its own limit and the peak.
  settled_ahead : waiting = [] →
    sweep.nextSmoothedV2 ≤ sweep.peakCruiseV2 ∧
      planStart 0 sweep.plan = min sweep.nextEndV2 sweep.peakCruiseV2 ∧
      ∀ next ∈ settled.head?, sweep.nextSmoothedV2 = next.maxSmoothedV2
  -- Some moves are delayed: the stretch gets slower towards its end.
  delayed_ahead : waiting ≠ [] →
    planStart 0 sweep.plan ≤ sweep.nextSmoothedV2 ∧
      ∀ finalV2, entryOf Span.startV2 finalV2 sweep.delayed = sweep.nextEndV2

theorem start_good : Good [] [] start where
  delayed := .nil
  planned := .nil
  smoothed_nonneg := le_rfl
  smoothed_le := le_rfl
  peak_nonneg := le_rfl
  none_ahead := fun _ => rfl
  ahead := by simp
  settled_ahead := fun _ => ⟨le_rfl, (min_self _).symm, by simp⟩
  delayed_ahead := fun nonempty => absurd rfl nonempty

namespace Good

variable {waiting settled : List Move} {sweep : Sweep} {move : Move}

/-- If the next move is not delayed and this move could be left faster than it is
entered, the next move starts at its limit. -/
theorem level (good : Good [] settled sweep) (linked : ∀ next ∈ settled.head?, move.Linked next)
    (faster : sweep.nextSmoothedV2 < move.maxSmoothedV2 + move.smoothDeltaV2) :
    sweep.nextEndV2 = sweep.nextSmoothedV2 ∧
      ∀ next ∈ settled.head?, sweep.nextEndV2 = next.maxStartV2 ∧
        sweep.nextSmoothedV2 = next.maxSmoothedV2 := by
  rcases good.settled_ahead rfl with ⟨-, -, smoothed_eq⟩
  cases first : settled.head? with
  | none =>
    have none_ahead := good.none_ahead (List.head?_eq_none_iff.mp first)
    have smoothed_nonneg := good.smoothed_nonneg
    have smoothed_le := good.smoothed_le
    refine ⟨by linarith, ?_⟩
    simp
  | some next =>
    have link := linked next first
    have ahead := good.ahead next first
    have smoothed_le := good.smoothed_le
    have smoothed_limit := smoothed_eq next first
    have limited : next.maxSmoothedV2 = next.maxStartV2 := by
      rcases min_choice next.maxStartV2 (move.maxSmoothedV2 + move.smoothDeltaV2) with
        byStart | byReach
      · exact link.smoothed_eq.trans byStart
      · have reached := link.smoothed_eq.trans byReach
        linarith
    refine ⟨by linarith [ahead.1], ?_⟩
    intro other member
    cases member
    exact ⟨by linarith [ahead.1], smoothed_limit⟩

variable (good : Good waiting settled sweep)
include good

theorem end_nonneg : 0 ≤ sweep.nextEndV2 := good.smoothed_nonneg.trans good.smoothed_le

theorem delayed_eq_nil_iff : sweep.delayed = [] ↔ waiting = [] := by
  rw [← List.length_eq_zero_iff, good.delayed.length_eq, List.length_eq_zero_iff]

theorem within (sane : move.Sane) (linked : ∀ next ∈ (waiting ++ settled).head?, move.Linked next) :
    sweep.nextEndV2 ≤ move.maxCruiseV2 ∧
      sweep.nextEndV2 ≤ move.maxStartV2 + move.deltaV2 ∧
      sweep.nextSmoothedV2 ≤ move.maxSmoothedV2 + move.smoothDeltaV2 := by
  rcases sane with ⟨smoothDelta_pos, smoothDelta_le, smoothed_nonneg, smoothed_le, start_le⟩
  have smoothed_le_end := good.smoothed_le
  cases first : (waiting ++ settled).head? with
  | none =>
    have none_ahead := good.none_ahead (List.head?_eq_none_iff.mp first)
    refine ⟨?_, ?_, ?_⟩ <;> linarith
  | some next =>
    have link := linked next first
    have ahead := good.ahead next first
    have smoothed_eq := link.smoothed_eq
    have smoothed_reach := min_le_right next.maxStartV2 (move.maxSmoothedV2 + move.smoothDeltaV2)
    refine ⟨ahead.1.trans link.start_le_cruise, ahead.1.trans link.start_le_reach, ?_⟩
    linarith [ahead.2]

end Good

section

variable {waiting settled : List Move} {sweep : Sweep} {move : Move}

theorem startV2_le_maxCruiseV2 (sane : move.Sane) : sweep.startV2 move ≤ move.maxCruiseV2 :=
  (min_le_left _ _).trans sane.start_le

theorem startV2_le_mean :
    sweep.startV2 move ≤ (sweep.startV2 move + sweep.reachableStartV2 move) / 2 := by
  have reach : sweep.startV2 move ≤ sweep.reachableStartV2 move := min_le_right _ _
  linarith

theorem min_cruiseV2 (mean : v2 ≤ (sweep.startV2 move + sweep.reachableStartV2 move) / 2)
    (cruise : v2 ≤ move.maxCruiseV2) :
    min v2 (sweep.cruiseV2 move (sweep.peakV2 move)) = min v2 (sweep.peakV2 move) := by
  rw [Speeds.cruiseV2, ← min_assoc, min_eq_left mean, ← min_assoc, min_eq_left cruise]

variable (good : Good waiting settled sweep) (sane : move.Sane)
include good sane

theorem smoothedV2_le_startV2 : sweep.smoothedV2 move ≤ sweep.startV2 move := by
  have reach : sweep.reachableSmoothedV2 move ≤ sweep.reachableStartV2 move :=
    add_le_add good.smoothed_le sane.smoothDelta_le
  exact min_le_min sane.smoothed_le reach

theorem smoothedV2_nonneg : 0 ≤ sweep.smoothedV2 move :=
  le_min sane.smoothed_nonneg (add_nonneg good.smoothed_nonneg sane.smoothDelta_pos.le)

variable (linked : ∀ next ∈ (waiting ++ settled).head?, move.Linked next)
include linked

theorem step_good_of_delays (delays : ¬sweep.Settles move) :
    Good (move :: waiting) settled (sweep.step move) := by
  have smoothDelta_pos := sane.smoothDelta_pos
  have smoothed_eq : sweep.smoothedV2 move = sweep.nextSmoothedV2 + move.smoothDeltaV2 :=
    smoothedV2_eq_of_not_settles delays
  have smoothed_limit : sweep.smoothedV2 move ≤ move.maxSmoothedV2 := min_le_left _ _
  have smoothed_start := smoothedV2_le_startV2 good sane
  -- Either way the delayed stretch now starts at the speed the next move asks for.
  have floor : planStart 0 sweep.plan ≤ sweep.nextSmoothedV2 ∧
      sweep.nextEndV2 = entryOf Span.startV2 (planStart 0 sweep.plan) sweep.delayed := by
    by_cases empty : waiting = []
    · subst empty
      rcases good.settled_ahead rfl with ⟨smoothed_peak, start_eq, -⟩
      have level := (good.level linked (by linarith)).1
      have low : sweep.nextEndV2 ≤ sweep.peakCruiseV2 := by linarith
      rw [min_eq_left low] at start_eq
      rw [good.delayed_eq_nil_iff.mpr rfl, entryOf_nil, start_eq]
      exact ⟨level.le, rfl⟩
    · have delayed_ahead := good.delayed_ahead empty
      exact ⟨delayed_ahead.1, (delayed_ahead.2 _).symm⟩
  rw [step, if_neg delays]
  exact
    { delayed := Joined.cons
        { floor_le := by linarith [floor.1]
          start_le := min_le_left _ _
          start_le_cruise := startV2_le_maxCruiseV2 sane
          start_le_reach := min_le_right _ _
          end_nonneg := good.end_nonneg
          delta_nonneg := smoothDelta_pos.le.trans sane.smoothDelta_le }
        floor.2 good.delayed
      planned := good.planned
      smoothed_nonneg := smoothedV2_nonneg good sane
      smoothed_le := smoothed_start
      peak_nonneg := good.peak_nonneg
      none_ahead := by simp
      ahead := by
        rintro next ⟨⟩
        exact ⟨min_le_left _ _, smoothed_limit⟩
      settled_ahead := by simp
      delayed_ahead := fun _ => ⟨by linarith [floor.1], fun _ => rfl⟩ }

theorem nextEndV2_le_mean :
    sweep.nextEndV2 ≤ (sweep.startV2 move + sweep.reachableStartV2 move) / 2 := by
  have within := good.within sane linked
  have smoothDelta_pos := sane.smoothDelta_pos
  have smoothDelta_le := sane.smoothDelta_le
  have reach : sweep.reachableStartV2 move = sweep.nextEndV2 + move.deltaV2 := rfl
  have slow : sweep.nextEndV2 - move.deltaV2 ≤ sweep.startV2 move :=
    le_min (by linarith) (by linarith)
  linarith

variable (settles : sweep.Settles move)
include settles

/-- A new peak lies above the smoothed speeds on both sides of the move. -/
theorem le_newPeakV2 :
    sweep.nextSmoothedV2 ≤ sweep.newPeakV2 move ∧ sweep.smoothedV2 move ≤ sweep.newPeakV2 move := by
  have within := good.within sane linked
  have smoothed_eq := smoothedV2_eq_of_settles settles
  have smoothed_le := good.smoothed_le
  have smoothed_start := smoothedV2_le_startV2 good sane
  have start_cruise : sweep.startV2 move ≤ move.maxCruiseV2 := startV2_le_maxCruiseV2 sane
  have reach : sweep.reachableSmoothedV2 move = sweep.nextSmoothedV2 + move.smoothDeltaV2 := rfl
  constructor <;> apply le_min <;> linarith

/-- The speed between this move and the next does not depend on which peak is in force. -/
theorem min_peakV2 (empty : waiting = []) :
    min sweep.nextEndV2 (sweep.peakV2 move) = min sweep.nextEndV2 sweep.peakCruiseV2 := by
  subst empty
  rw [peakV2]
  split
  next peaks =>
    rcases peaks with faster | waits
    · have smoothed_eq := smoothedV2_eq_of_settles settles
      have level := (good.level linked (by linarith)).1
      have old := (good.settled_ahead rfl).1
      have new := (le_newPeakV2 good sane linked settles).1
      rw [min_eq_left (level.le.trans new), min_eq_left (level.le.trans old)]
    · exact absurd (good.delayed_eq_nil_iff.mpr rfl) waits
  · rfl

theorem smoothedV2_le_peakV2 : sweep.smoothedV2 move ≤ sweep.peakV2 move := by
  rw [peakV2]
  split
  · exact (le_newPeakV2 good sane linked settles).2
  next keeps =>
    rw [not_or, not_not, not_lt] at keeps
    have empty := good.delayed_eq_nil_iff.mp keeps.2
    have below := (good.settled_ahead empty).1
    have smoothDelta_pos := sane.smoothDelta_pos
    linarith [keeps.1]

theorem planStart_le_peakV2 : planStart 0 sweep.plan ≤ sweep.peakV2 move := by
  by_cases empty : waiting = []
  · subst empty
    rw [(good.settled_ahead rfl).2.1, ← min_peakV2 good sane linked settles rfl]
    exact min_le_right _ _
  · have peaks : sweep.Peaks move := Or.inr (mt good.delayed_eq_nil_iff.mp empty)
    rw [peakV2, if_pos peaks]
    exact (good.delayed_ahead empty).1.trans (le_newPeakV2 good sane linked settles).1

theorem junction_meets : (sweep.junction move (sweep.peakV2 move)).endV2 =
      planStart 0 (spread (sweep.peakV2 move) sweep.delayed ++ sweep.plan) := by
  have below := planStart_le_peakV2 good sane linked settles
  have leaves : (sweep.junction move (sweep.peakV2 move)).endV2 =
      min sweep.nextEndV2 (sweep.peakV2 move) :=
    min_cruiseV2 (nextEndV2_le_mean good sane linked) (good.within sane linked).1
  have enters : planStart 0 (spread (sweep.peakV2 move) sweep.delayed ++ sweep.plan) =
      min (sweep.peakV2 move) (entryOf Span.startV2 (planStart 0 sweep.plan) sweep.delayed) :=
    (entryOf_append _ _ _ _).trans (planStart_spread below sweep.delayed)
  rw [leaves, enters]
  by_cases empty : waiting = []
  · subst empty
    rw [good.delayed_eq_nil_iff.mpr rfl, entryOf_nil, min_eq_right below,
      (good.settled_ahead rfl).2.1]
    exact min_peakV2 good sane linked settles rfl
  · rw [(good.delayed_ahead empty).2, min_comm]

theorem junction_fits : Junction.Fits move (sweep.junction move (sweep.peakV2 move)) := by
  have within := good.within sane linked
  have smoothDelta_pos := sane.smoothDelta_pos
  have smoothDelta_le := sane.smoothDelta_le
  have start_nonneg : 0 ≤ sweep.startV2 move :=
    (smoothedV2_nonneg good sane).trans (smoothedV2_le_startV2 good sane)
  have peak_nonneg : 0 ≤ sweep.peakV2 move :=
    (smoothedV2_nonneg good sane).trans (smoothedV2_le_peakV2 good sane linked settles)
  have mean := nextEndV2_le_mean good sane linked
  have end_nonneg := good.end_nonneg
  have reach : sweep.reachableStartV2 move = sweep.nextEndV2 + move.deltaV2 := rfl
  have cut := min_le_left sweep.nextEndV2 (sweep.cruiseV2 move (sweep.peakV2 move))
  apply Junction.fits_of_cut
  · exact start_nonneg
  · exact le_min (by linarith) (le_min (by linarith) peak_nonneg)
  · exact end_nonneg
  · linarith
  · exact (min_le_right _ _).trans (min_le_left _ _)
  · exact min_le_left _ _
  · exact min_le_right _ _
  · linarith
  · exact min_le_left _ _

/-- A settled move, with the delayed stretch after it, joins the plan. -/
theorem step_good_of_settles : Good [] (move :: (waiting ++ settled)) (sweep.step move) := by
  have below := planStart_le_peakV2 good sane linked settles
  have smoothed_peak := smoothedV2_le_peakV2 good sane linked settles
  have smoothed_nonneg := smoothedV2_nonneg good sane
  have spreads := spread_planned (planStart_nonneg good.planned) below good.delayed
  rw [step, if_pos settles]
  exact
    { delayed := .nil
      planned := Joined.cons (junction_fits good sane linked settles)
        (junction_meets good sane linked settles) (spreads.append good.planned)
      smoothed_nonneg
      smoothed_le := smoothedV2_le_startV2 good sane
      peak_nonneg := smoothed_nonneg.trans smoothed_peak
      none_ahead := by simp
      ahead := by
        rintro next ⟨⟩
        exact ⟨min_le_left _ _, min_le_left _ _⟩
      settled_ahead := by
        intro _
        refine ⟨smoothed_peak, ?_, ?_⟩
        · exact min_cruiseV2 startV2_le_mean (startV2_le_maxCruiseV2 sane)
        · rintro next ⟨⟩
          exact smoothedV2_eq_of_settles settles
      delayed_ahead := fun nonempty => absurd rfl nonempty }

end

theorem ofMoves_good (plannable : Plannable moves) :
    ∃ waiting settled, waiting ++ settled = moves ∧ Good waiting settled (ofMoves moves) := by
  induction moves with
  | nil => exact ⟨[], [], rfl, start_good⟩
  | cons move moves induction =>
    rcases plannable with ⟨sane, linked, rest⟩
    rcases induction rest with ⟨waiting, settled, rfl, good⟩
    by_cases settles : (ofMoves (waiting ++ settled)).Settles move
    · exact ⟨[], move :: (waiting ++ settled), rfl, step_good_of_settles good sane linked settles⟩
    · exact ⟨move :: waiting, settled, rfl, step_good_of_delays good sane linked settles⟩

end Sweep

end CentauriCarbon.Motion
