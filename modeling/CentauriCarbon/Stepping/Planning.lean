import CentauriCarbon.Stepping.StepSchedule
import CentauriCarbon.Stepping.ValidMoves

/-! # What the host plans

Every operation of the step compression succeeds on ascending clocks, and the messages
it queues mean exactly the steps that left its queue, each within its window.
-/

namespace CentauriCarbon.Stepping

open List

def clocks (requests : List StepRequest) : List Nat := requests.map StepRequest.clock

structure Aligned (sc : StepCompress) (requests : List StepRequest) : Prop where
  queue : sc.queue = (clocks requests).map UInt32.ofNat
  ascending : (sc.lastStepClock.toNat :: clocks requests).Pairwise (· < ·)
  near : ∀ clock ∈ clocks requests, clock < sc.lastStepClock.toNat + 0x30000000
  bounded : ∀ clock ∈ sc.lastStepClock.toNat :: clocks requests, clock < clockLimit
  facing : ∀ request ∈ requests, sc.sdir = some request.dir
  maxError_le : sc.maxError.toNat ≤ 8192

namespace Aligned

variable {sc : StepCompress} {requests : List StepRequest}

variable (aligned : Aligned sc requests)
include aligned

theorem length_queue : sc.queue.length = requests.length := by
  rw [aligned.queue, length_map, clocks, length_map]

/-- A queued clock comes after the one before it and is near the last step. -/
theorem clock_bounds (inside : pos < requests.length) :
    sc.lastStepClock.toNat ≤ (sc.lastStepClock.toNat :: clocks requests).getD pos 0 ∧
      (sc.lastStepClock.toNat :: clocks requests).getD pos 0 < (clocks requests).getD pos 0 ∧
      (clocks requests).getD pos 0 < sc.lastStepClock.toNat + 0x30000000 := by
  have length : (clocks requests).length = requests.length := length_map _
  have insideClocks : pos < (clocks requests).length := by omega
  have ascending := pairwise_iff_getElem.mp aligned.ascending
  have near := aligned.near _ (getElem_mem insideClocks)
  rw [getD_eq_getElem _ _ insideClocks, getD_eq_getElem _ _ (by simp only [length_cons]; omega)]
  refine ⟨?_, ?_, near⟩
  · cases pos with
    | zero => exact le_rfl
    | succ pos =>
      exact (ascending 0 (pos + 1) (by simp) (by simp only [length_cons]; omega) (by omega)).le
  · exact ascending pos (pos + 1) (by simp only [length_cons]; omega)
      (by simp only [length_cons]; omega) (by omega)

theorem offsets_eq : offsets sc = (clocks requests).map (· - sc.lastStepClock.toNat) := by
  rw [offsets, aligned.queue, map_map]
  apply map_congr_left
  intro clock member
  have later := rel_of_pairwise_cons aligned.ascending member
  have near := aligned.near clock member
  change (UInt32.ofNat clock - UInt32.ofNat sc.lastStepClock.toNat).toNat = _
  rw [UInt32.toNat_sub, UInt32.toNat_ofNat', UInt32.toNat_ofNat']
  omega

theorem toNear : Near sc where
  ascending := by
    have ascending := aligned.ascending
    rw [pairwise_cons] at ascending
    rw [aligned.offsets_eq, pairwise_cons, pairwise_map]
    constructor
    · intro offset member
      rcases mem_map.mp member with ⟨clock, isClock, rfl⟩
      exact Nat.sub_pos_of_lt (ascending.1 clock isClock)
    · apply ascending.2.imp_of_mem
      intro earlier later isEarlier _ ascends
      exact Nat.sub_lt_sub_right (ascending.1 earlier isEarlier).le ascends
  near := by
    intro offset member
    rw [aligned.offsets_eq] at member
    rcases mem_map.mp member with ⟨clock, isClock, rfl⟩
    have near := aligned.near clock isClock
    omega
  maxError_le := aligned.maxError_le

theorem windowed : Windowed sc := aligned.toNear.windowed

theorem minmaxPoint_eq (inside : pos < requests.length) : let last := sc.lastStepClock.toNat
    let clock := (clocks requests).getD pos 0
    let previous := (last :: clocks requests).getD pos 0
    minmaxPoint sc pos =
      ⟨((clock - last - min sc.maxError.toNat ((clock - previous) / 2) : Nat) : Int),
        ((clock - last : Nat) : Int)⟩ := by
  have bounds := aligned.clock_bounds inside
  intro last clock previous
  have offset : (offsets sc).getD pos 0 = clock - last := by
    have mapped := getD_map (n := pos) (clocks requests) 0 (· - last)
    rwa [Nat.zero_sub, ← aligned.offsets_eq] at mapped
  have before : (0 :: offsets sc).getD pos 0 = previous - last := by
    have mapped := getD_map (n := pos) (last :: clocks requests) 0 (· - last)
    rwa [map_cons, Nat.sub_self, Nat.zero_sub, ← aligned.offsets_eq] at mapped
  rw [aligned.toNear.minmaxPoint_eq (by rwa [aligned.length_queue]), offset, before,
    Nat.sub_sub_sub_cancel_right bounds.1]

end Aligned

def planMove (last : Nat) (interval add : Int) : Nat → List StepRequest → List PlannedStep
  | _, [] => []
  | pos, request :: requests =>
    ⟨request.dir, request.clock, last + (position interval add (pos + 1)).toNat⟩ ::
      planMove last interval add (pos + 1) requests

section Plan

variable (last : Nat) (interval add : Int)

variable (pos : Nat) (requests : List StepRequest)

theorem planMove_request :
    (planMove last interval add pos requests).map PlannedStep.request = requests := by
  induction requests generalizing pos with
  | nil => rfl
  | cons request requests induction =>
    rw [planMove, map_cons, induction]
    rfl

theorem length_planMove : (planMove last interval add pos requests).length = requests.length := by
  conv_rhs => rw [← planMove_request last interval add pos requests, length_map]

theorem lastTime_planMove : lastTime (last + (position interval add pos).toNat)
        (planMove last interval add pos requests) =
      last + (position interval add (pos + requests.length)).toNat := by
  induction requests generalizing pos with
  | nil => rfl
  | cons request requests induction =>
    have rest := induction (pos + 1)
    rw [length_cons, ← add_assoc, Nat.add_right_comm, ← rest, planMove, lastTime,
      lastTime, getLast?_cons]
    cases (planMove last interval add (pos + 1) requests).getLast? with
    | none => rfl
    | some step => rfl

theorem advance_planMove (facing : ∀ request ∈ requests, (request.dir ^^ invertSdir) = dir)
    (nonneg : ∀ reached, pos ≤ reached → reached ≤ pos + requests.length →
      0 ≤ position interval add reached) (steps : List (Bool × UInt32)) :
    Motion.advance (UInt32.ofInt add) requests.length (UInt32.ofInt (interval + add * pos))
        ⟨UInt32.ofNat (last + (position interval add pos).toNat), dir, steps⟩ =
      ⟨UInt32.ofNat (last + (position interval add (pos + requests.length)).toNat), dir,
        steps ++ (planMove last interval add pos requests).map
          (PlannedStep.emitted invertSdir)⟩ := by
  induction requests generalizing pos steps with
  | nil => simp [Motion.advance, planMove]
  | cons request requests induction =>
    have now := nonneg pos le_rfl (by omega)
    have next := nonneg (pos + 1) (by omega) (by rw [length_cons]; omega)
    have moved : UInt32.ofNat (last + (position interval add pos).toNat) +
        UInt32.ofInt (interval + add * pos) =
        UInt32.ofNat (last + (position interval add (pos + 1)).toNat) := by
      rw [← UInt32.ofInt_natCast, ← UInt32.ofInt_natCast, ← UInt32.ofInt_add]
      push_cast
      rw [Int.toNat_of_nonneg now, Int.toNat_of_nonneg next, position_succ, add_assoc]
    have stretched : UInt32.ofInt (interval + add * pos) + UInt32.ofInt add =
        UInt32.ofInt (interval + add * ((pos + 1 : Nat) : Int)) := by
      rw [← UInt32.ofInt_add]
      push_cast
      rw [mul_add, mul_one, add_assoc]
    rw [length_cons, Motion.advance, moved, stretched, induction (pos + 1)]
    · rw [planMove, map_cons, append_assoc, PlannedStep.emitted,
        facing request mem_cons_self, Nat.add_right_comm pos 1, add_assoc pos]
      rfl
    · intro other member
      exact facing other (mem_cons_of_mem _ member)
    · intro reached above below
      exact nonneg reached (by omega) (by rw [length_cons]; omega)

end Plan

theorem inWindows_planMove {sc : StepCompress} {requests : List StepRequest}
    (aligned : Aligned sc requests) {interval add : Int} {count : Nat}
    (usable : Usable sc interval count add) (remaining pos : Nat)
    (whole : pos + remaining = count) :
    InWindows sc.maxError.toNat ((sc.lastStepClock.toNat :: clocks requests).getD pos 0)
      (planMove sc.lastStepClock.toNat interval add pos ((requests.drop pos).take remaining)) := by
  induction remaining generalizing pos with
  | zero =>
    rw [take_zero]
    exact trivial
  | succ remaining induction =>
    have inQueue := usable.inQueue
    rw [aligned.length_queue] at inQueue
    have inside : pos < requests.length := by omega
    have bounds := aligned.clock_bounds inside
    have covers := usable.covers pos (by omega)
    have rest := induction (pos + 1) (by omega)
    have clock : (clocks requests).getD pos 0 = (requests[pos]).clock := by
      rw [getD_eq_getElem _ _ (by rw [clocks, length_map]; exact inside)]
      exact getElem_map _
    rw [aligned.minmaxPoint_eq inside] at covers
    rw [getD_cons_succ] at rest
    rw [clock] at covers bounds rest
    rw [drop_eq_getElem_cons inside, take_succ_cons, planMove]
    dsimp only at covers
    refine ⟨bounds.2.1, ?_, ?_, rest⟩
    · dsimp only
      omega
    · dsimp only
      omega

end CentauriCarbon.Stepping
