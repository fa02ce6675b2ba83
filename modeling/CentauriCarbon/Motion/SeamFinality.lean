import CentauriCarbon.Motion.JunctionPlan

/-! # The seam of a lazy flush

A lazy flush ends in front of a move that starts a new peak while an older peak is known.
From there back to that older peak no speed changes when moves are appended to the queue,
so the retained moves keep the start speed they had in the pass of the lazy flush.
-/

namespace CentauriCarbon.Motion

open List

namespace Sweep

def Cuts (sweep : Sweep) (move : Move) : Prop :=
  sweep.Settles move ∧ sweep.Peaks move ∧ sweep.peakCruiseV2 ≠ 0

structure SameAhead (left right : Sweep) : Prop where
  nextEndV2 : left.nextEndV2 = right.nextEndV2
  nextSmoothedV2 : left.nextSmoothedV2 = right.nextSmoothedV2

namespace SameAhead

variable {left right : Sweep}

variable (same : SameAhead left right)
include same

theorem startV2 (move : Move) : left.startV2 move = right.startV2 move := by
  simp only [Speeds.startV2, Speeds.reachableStartV2, same.nextEndV2]

theorem reachableSmoothedV2 (move : Move) :
    left.reachableSmoothedV2 move = right.reachableSmoothedV2 move := by
  simp only [Speeds.reachableSmoothedV2, same.nextSmoothedV2]

theorem smoothedV2 (move : Move) : left.smoothedV2 move = right.smoothedV2 move := by
  simp only [Speeds.smoothedV2, same.reachableSmoothedV2]

theorem settles_iff (move : Move) : left.Settles move ↔ right.Settles move := by
  rw [Speeds.Settles, Speeds.Settles, same.smoothedV2, same.reachableSmoothedV2]

theorem newPeakV2 (move : Move) : left.newPeakV2 move = right.newPeakV2 move := by
  simp only [Speeds.newPeakV2, same.smoothedV2, same.reachableSmoothedV2]

theorem step (move : Move) : SameAhead (left.step move) (right.step move) where
  nextEndV2 := by rw [step_nextEndV2, step_nextEndV2, same.startV2]
  nextSmoothedV2 := by rw [step_nextSmoothedV2, step_nextSmoothedV2, same.smoothedV2]

end SameAhead

variable {move : Move} {sweep : Sweep}

theorem step_delayed_eq_nil_iff : (sweep.step move).delayed = [] ↔ sweep.Settles move := by
  rw [step]
  split
  next settles => exact iff_of_true rfl settles
  next delays => exact iff_of_false (cons_ne_nil _ _) delays

theorem step_peakCruiseV2_of_delays (delays : ¬sweep.Settles move) :
    (sweep.step move).peakCruiseV2 = sweep.peakCruiseV2 := by
  rw [step, if_neg delays]

theorem ofMoves_nonneg (sane : ∀ move ∈ moves, Move.Sane move) :
    0 ≤ (ofMoves moves).nextEndV2 ∧ 0 ≤ (ofMoves moves).nextSmoothedV2 ∧
      0 ≤ (ofMoves moves).peakCruiseV2 := by
  induction moves with
  | nil => exact ⟨le_rfl, le_rfl, le_rfl⟩
  | cons move moves induction =>
    have headSane := sane move mem_cons_self
    rcases induction fun other member => sane other (mem_cons_of_mem _ member) with
      ⟨end_nonneg, smoothed_nonneg, peak_nonneg⟩
    have smoothDelta_pos := headSane.smoothDelta_pos
    have smoothDelta_le := headSane.smoothDelta_le
    have limit_nonneg := headSane.smoothed_nonneg
    have start_nonneg := limit_nonneg.trans headSane.smoothed_le
    have smoothed : 0 ≤ (ofMoves moves).smoothedV2 move :=
      le_min limit_nonneg (add_nonneg smoothed_nonneg smoothDelta_pos.le)
    rw [ofMoves, step_nextEndV2, step_nextSmoothedV2]
    refine ⟨le_min start_nonneg (add_nonneg end_nonneg (by linarith)), smoothed, ?_⟩
    rw [step]
    split
    · change 0 ≤ (ofMoves moves).peakV2 move
      rw [peakV2]
      split
      · exact le_min (start_nonneg.trans headSane.start_le) (by linarith)
      · exact peak_nonneg
    · exact peak_nonneg

theorem ofMoves_le_ofMoves_append (sane : ∀ move ∈ more, Move.Sane move) (moves : List Move) :
    (ofMoves moves).nextEndV2 ≤ (ofMoves (moves ++ more)).nextEndV2 ∧
      (ofMoves moves).nextSmoothedV2 ≤ (ofMoves (moves ++ more)).nextSmoothedV2 := by
  induction moves with
  | nil => exact ⟨(ofMoves_nonneg sane).1, (ofMoves_nonneg sane).2.1⟩
  | cons move moves induction =>
    rw [cons_append, ofMoves, ofMoves]
    simp only [step_nextEndV2, step_nextSmoothedV2]
    exact ⟨min_le_min_left _ (add_le_add induction.1 le_rfl),
      min_le_min_left _ (add_le_add induction.2 le_rfl)⟩

/-- No appended moves change the speeds in front of these moves. -/
def Final (moves : List Move) : Prop :=
  ∀ more, (∀ move ∈ more, Move.Sane move) → SameAhead (ofMoves (moves ++ more)) (ofMoves moves)

theorem Final.cons (final : Final moves) (move : Move) : Final (move :: moves) :=
  fun more sane => (final more sane).step move

/-- The move after a settled move is at its limit if this move could be left faster. -/
theorem final_of_faster {next : Move} (plannable : Plannable (move :: next :: moves))
    (settled : (ofMoves (next :: moves)).delayed = [])
    (faster : (ofMoves (next :: moves)).nextSmoothedV2 < move.maxSmoothedV2 + move.smoothDeltaV2) :
    Final (next :: moves) := by
  rcases plannable with ⟨-, linked, rest⟩
  rcases ofMoves_good rest with ⟨waiting, planned, split, good⟩
  have empty := good.delayed_eq_nil_iff.mp settled
  subst empty
  subst split
  have limits := (good.level linked faster).2 next rfl
  intro more sane
  have raised := ofMoves_le_ofMoves_append sane (next :: moves)
  rw [limits.1, limits.2] at raised
  constructor
  · rw [limits.1]
    apply le_antisymm _ raised.1
    rw [cons_append, ofMoves, step_nextEndV2]
    exact min_le_left _ _
  rw [limits.2]
  apply le_antisymm _ raised.2
  rw [cons_append, ofMoves, step_nextSmoothedV2]
  exact min_le_left _ _

/-- Behind a delayed stretch that ends at a peak the speeds are final. -/
theorem final_of_delayed (plannable : Plannable moves) (delayed : (ofMoves moves).delayed ≠ [])
    (peak : (ofMoves moves).peakCruiseV2 ≠ 0) : Final moves.tail := by
  induction moves with
  | nil => exact absurd rfl delayed
  | cons move moves induction =>
    have delays : ¬(ofMoves moves).Settles move := mt step_delayed_eq_nil_iff.mpr delayed
    rw [ofMoves, step_peakCruiseV2_of_delays delays] at peak
    cases moves with
    | nil => exact absurd rfl peak
    | cons next moves =>
      by_cases settled : (ofMoves (next :: moves)).delayed = []
      · apply final_of_faster plannable settled
        have smoothed_eq := smoothedV2_eq_of_not_settles delays
        have smoothed_le : (ofMoves (next :: moves)).smoothedV2 move ≤
            move.maxSmoothedV2 := min_le_left _ _
        have smoothDelta_pos := plannable.1.smoothDelta_pos
        rw [smoothed_eq, Speeds.reachableSmoothedV2] at smoothed_le
        linarith
      · exact (induction plannable.2.2 settled peak).cons next

/-- Where a lazy flush may end, the speeds ahead are final, and so is the peak. -/
theorem Cuts.final (cuts : (ofMoves moves).Cuts move) (plannable : Plannable (move :: moves))
    (sane : ∀ move ∈ more, Move.Sane move) :
    SameAhead (ofMoves (moves ++ more)) (ofMoves moves) ∧ (ofMoves (moves ++ more)).Peaks move := by
  rcases cuts with ⟨settles, peaks, peak⟩
  cases moves with
  | nil => exact absurd rfl peak
  | cons next moves =>
    by_cases settled : (ofMoves (next :: moves)).delayed = []
    · have faster := peaks.resolve_right (not_not.mpr settled)
      have smoothed_eq := smoothedV2_eq_of_settles settles
      have same := final_of_faster plannable settled (by linarith) more sane
      refine ⟨same, Or.inl ?_⟩
      rw [same.smoothedV2, same.nextSmoothedV2]
      exact faster
    · have final := final_of_delayed plannable.2.2 settled peak
      refine ⟨(final.cons next) more sane, Or.inr ?_⟩
      have delays : ¬(ofMoves moves).Settles next := mt step_delayed_eq_nil_iff.mpr settled
      exact mt step_delayed_eq_nil_iff.mp (mt ((final more sane).settles_iff next).mp delays)

end Sweep

/-- Whatever is appended to the queue, its first move is not delayed and starts at
`seamV2`. -/
def Anchored (queue : List Move) (seamV2 : ℚ) : Prop :=
  ∀ more, (∀ move ∈ more, Move.Sane move) →
    (Sweep.ofMoves (queue ++ more)).delayed = [] ∧
      min (Sweep.ofMoves (queue ++ more)).nextEndV2
        (Sweep.ofMoves (queue ++ more)).peakCruiseV2 = seamV2

theorem Anchored.append (anchored : Anchored queue seamV2) (sane : ∀ move ∈ moves, Move.Sane move) :
    Anchored (queue ++ moves) seamV2 := by
  intro more moreSane
  rw [append_assoc]
  apply anchored
  intro move member
  exact (mem_append.mp member).elim (sane move) (moreSane move)

theorem anchored_of_cuts (cuts : (Sweep.ofMoves moves).Cuts move)
    (plannable : Plannable (move :: moves)) :
    Anchored (move :: moves) (min (Sweep.ofMoves (move :: moves)).nextEndV2
      (Sweep.ofMoves (move :: moves)).peakCruiseV2) := by
  intro more sane
  rcases cuts.final plannable sane with ⟨same, peaks⟩
  have settles := (same.settles_iff move).mpr cuts.1
  have peak : ∀ sweep : Sweep, sweep.Settles move → sweep.Peaks move →
      (sweep.step move).peakCruiseV2 = sweep.newPeakV2 move := by
    intro sweep settles peaks
    rw [Sweep.step, if_pos settles]
    exact if_pos peaks
  constructor
  · exact Sweep.step_delayed_eq_nil_iff.mpr settles
  · rw [cons_append, Sweep.ofMoves, Sweep.ofMoves, (same.step move).nextEndV2,
      peak _ settles peaks, peak _ cuts.1 cuts.2.1, same.newPeakV2]

theorem anchored_of_rest (sane : move.Sane) (rest : move.maxStartV2 = 0) : Anchored [move] 0 := by
  intro more moreSane
  rcases Sweep.ofMoves_nonneg moreSane with ⟨end_nonneg, smoothed_nonneg, -⟩
  have smoothDelta_pos := sane.smoothDelta_pos
  have smoothDelta_le := sane.smoothDelta_le
  have smoothed_le := sane.smoothed_le
  have limited : (Sweep.ofMoves more).smoothedV2 move ≤ move.maxSmoothedV2 := min_le_left _ _
  rw [singleton_append]
  constructor
  · apply Sweep.step_delayed_eq_nil_iff.mpr
    rw [Speeds.Settles, Speeds.reachableSmoothedV2]
    linarith
  have starts : (Sweep.ofMoves (move :: more)).nextEndV2 = 0 := by
    rw [Sweep.ofMoves, Sweep.step_nextEndV2, Speeds.startV2, rest]
    exact min_eq_left (add_nonneg end_nonneg (by linarith))
  have allSane : ∀ other ∈ move :: more, Move.Sane other := forall_mem_cons.mpr ⟨sane, moreSane⟩
  rw [starts]
  exact min_eq_left (Sweep.ofMoves_nonneg allSane).2.2

end CentauriCarbon.Motion
