import CentauriCarbon.Stepping.Compression
import Mathlib.Data.List.GetD

/-! # Compression finds a move

From any queue of ascending clocks near the last step the search returns a move that
`check_line` accepts, so that `queue_flush` always goes on.
-/

namespace CentauriCarbon.Stepping

open List

/-- The clocks of the queue, counted in 32 bits from the last step on. -/
def offsets (sc : StepCompress) : List Nat :=
  sc.queue.map fun clock => (clock - sc.lastStepClock.toUInt32).toNat

structure Near (sc : StepCompress) : Prop where
  ascending : (0 :: offsets sc).Pairwise (· < ·)
  near : ∀ offset ∈ offsets sc, offset < 0x30000000
  maxError_le : sc.maxError.toNat ≤ 8192

variable {sc : StepCompress}

theorem length_offsets (sc : StepCompress) : (offsets sc).length = sc.queue.length := length_map _

theorem getD_offsets (inside : pos < sc.queue.length) :
    (sc.queue.getD pos 0 - sc.lastStepClock.toUInt32).toNat = (offsets sc).getD pos 0 := by
  rw [getD_eq_getElem _ _ inside, getD_eq_getElem _ _ (by rwa [length_offsets])]
  simp only [offsets, getElem_map]

/-- What a flush leaves after one of its moves. -/
def afterMove (sc : StepCompress) (move : StepMove) (queueBase : Nat) : StepCompress :=
  { addMove sc (sc.lastStepClock + move.interval.toUInt64) move with
    queue := sc.queue.drop move.count.toNat
    queueBase }

theorem Usable.queue_afterMove {interval add : Int} {count base : Nat}
    (usable : Usable sc interval count add) :
    (afterMove sc (stepMove interval count add) base).queue = sc.queue.drop count :=
  congrArg (drop · sc.queue) usable.toNat_count

section Flush

variable (Good : StepCompress → Prop) (windowed : ∀ {sc}, Good sc → Windowed sc)
  (moved : ∀ {sc interval count add} base, Good sc → Usable sc interval count add →
    Good (afterMove sc (stepMove interval count add) base))
  (moveClock : UInt64)
include windowed moved

theorem queueFlushLoop_rule (good : Good sc) (queued : 0 < sc.queue.length)
    (enough : sc.queue.length ≤ rounds) :
    ∃ final, queueFlushLoop moveClock rounds sc = .done final ∧ Good final ∧
      (final.queue = [] ∨ moveClock ≤ final.lastStepClock) := by
  induction rounds generalizing sc with
  | zero => omega
  | succ rounds induction =>
    rw [queueFlushLoop]
    split
    · rcases compressBisectAdd_usable (windowed good) queued with
        ⟨interval, count, add, found, usable⟩
      have nonzero := usable.nonzero
      rw [found, if_pos (checkLine_usable (windowed good) usable)]
      split
      next all =>
        have last := moved 0 good usable
        rw [afterMove, drop_of_length_le all] at last
        exact ⟨_, rfl, last, .inl rfl⟩
      next more =>
        rw [usable.toNat_count] at more
        apply induction (moved _ good usable)
        · rw [usable.queue_afterMove, length_drop]
          omega
        · rw [usable.queue_afterMove, length_drop]
          omega
    next reached => exact ⟨sc, rfl, good, .inr (not_lt.mp reached)⟩

/-- What every move of a flush keeps, a flush keeps. It ends when no step is left or when the
clock is reached. -/
theorem queueFlush_rule (good : Good sc) :
    ∃ final, queueFlush sc moveClock = .done final ∧ Good final ∧
      (final.queue = [] ∨ moveClock ≤ final.lastStepClock) := by
  rw [queueFlush]
  split
  next empty => exact ⟨sc, rfl, good, .inl empty⟩
  next nonempty =>
    exact queueFlushLoop_rule Good windowed moved moveClock good (length_pos_iff.mpr nonempty)
      le_rfl

end Flush

theorem Usable.toUInt32_lastStepClock {interval add : Int} {count base : Nat}
    (usable : Usable sc interval count add) (windowed : Windowed sc) :
    (afterMove sc (stepMove interval count add) base).lastStepClock.toUInt32 =
      sc.lastStepClock.toUInt32 + UInt32.ofInt (position interval add count) := by
  have split : position interval add count =
      interval + (add * addFactor count + interval * ((count : Int) - 1)) := by
    rw [position, (usable.moderate windowed).mul_addFactor.1]
    ring
  have word : (stepMove interval count add).interval = UInt32.ofInt interval := rfl
  rw [split]
  simp only [afterMove, addMove, usable.toInt_add, usable.toNat_count, word, UInt64.toUInt32_add,
    UInt32.toUInt32_toUInt64, UInt32.ofInt_add, UInt32.ofInt_mul, UInt32.add_assoc]

namespace Near

variable (near : Near sc)
include near

theorem bounds (inside : pos < sc.queue.length) :
    (0 :: offsets sc).getD pos 0 < (offsets sc).getD pos 0 ∧
      (offsets sc).getD pos 0 < 0x30000000 := by
  rw [← length_offsets] at inside
  have later : pos + 1 < (0 :: offsets sc).length := Nat.succ_lt_succ inside
  have ascends := pairwise_iff_getElem.mp near.ascending pos (pos + 1) (Nat.lt_of_succ_lt later)
    later (Nat.lt_succ_self pos)
  rw [getD_eq_getElem _ _ inside, getD_eq_getElem _ _ (Nat.lt_of_succ_lt later)]
  exact ⟨ascends, near.near _ (getElem_mem inside)⟩

theorem minmaxPoint_eq (inside : pos < sc.queue.length) : let offset := (offsets sc).getD pos 0
    let previous := (0 :: offsets sc).getD pos 0
    minmaxPoint sc pos =
      ⟨((offset - min sc.maxError.toNat ((offset - previous) / 2) : Nat) : Int), offset⟩ := by
  have bounds := near.bounds inside
  intro offset previous
  change previous < offset ∧ offset < 0x30000000 at bounds
  have point : (sc.queue.getD pos 0 - sc.lastStepClock.toUInt32).toNat = offset :=
    getD_offsets inside
  have prevpoint : (if 0 < pos then sc.queue.getD (pos - 1) 0 - sc.lastStepClock.toUInt32
      else 0).toNat = previous := by
    cases pos with
    | zero => rfl
    | succ pos => exact getD_offsets (Nat.lt_of_succ_lt inside)
  rw [minmaxPoint]
  generalize sc.queue.getD pos 0 - sc.lastStepClock.toUInt32 = pointWord at point ⊢
  generalize (if 0 < pos then sc.queue.getD (pos - 1) 0 - sc.lastStepClock.toUInt32
    else 0) = prevWord at prevpoint ⊢
  have half : ((pointWord - prevWord) / 2).toNat = (offset - previous) / 2 := by
    rw [UInt32.toNat_div, UInt32.toNat_sub_of_le _ _ (by rw [UInt32.le_iff_toNat_le]; omega),
      point, prevpoint]
    rfl
  generalize (pointWord - prevWord) / 2 = halfWord at half ⊢
  have error : (if halfWord > sc.maxError then sc.maxError else halfWord).toNat =
      min sc.maxError.toNat ((offset - previous) / 2) := by
    split
    case isTrue above =>
      have order := UInt32.lt_iff_toNat_lt.mp above
      omega
    case isFalse within =>
      have order := UInt32.lt_iff_toNat_lt.not.mp within
      omega
  generalize (if halfWord > sc.maxError then sc.maxError else halfWord) = errorWord at error ⊢
  have difference : (pointWord - errorWord).toNat =
      offset - min sc.maxError.toNat ((offset - previous) / 2) := by
    rw [UInt32.toNat_sub_of_le _ _ (by rw [UInt32.le_iff_toNat_le]; omega), point, error]
  rw [UInt32.toInt_toInt32_of_lt (by omega), UInt32.toInt_toInt32_of_lt (by omega), difference,
    point]

theorem windowed : Windowed sc where
  positive pos inside := by
    have bounds := near.bounds inside
    rw [near.minmaxPoint_eq inside]
    dsimp only
    omega
  nonempty pos inside := by
    rw [near.minmaxPoint_eq inside]
    dsimp only
    omega
  near pos inside := by
    have bounds := near.bounds inside
    rw [near.minmaxPoint_eq inside]
    dsimp only
    omega
  ascending pos inside := by
    have bounds := near.bounds inside
    rw [near.minmaxPoint_eq inside, near.minmaxPoint_eq (Nat.lt_of_succ_lt inside)]
    rw [getD_cons_succ] at bounds ⊢
    dsimp only
    omega
  maxError_le := near.maxError_le
  narrow queued := by
    have maxError_le := near.maxError_le
    rw [near.minmaxPoint_eq queued]
    dsimp only
    omega

/-- The steps behind a move are as near to its last step as they were to the one before. -/
theorem afterMove {interval add : Int} {count : Nat} (base : Nat)
    (usable : Usable sc interval count add) :
    Near (afterMove sc (stepMove interval count add) base) := by
  have nonzero := usable.nonzero
  have inQueue := usable.inQueue
  have nonneg := usable.position_nonneg near.windowed count le_rfl
  have small := usable.position_lt near.windowed count le_rfl
  have reached := UInt32.toNat_ofInt_of_lt nonneg (small.trans (by decide))
  -- the move ends at or before the last step that it covers
  have before : position interval add count ≤ ((0 :: offsets sc).getD count 0 : Nat) := by
    cases count with
    | zero => omega
    | succ pos =>
      have covers := (usable.covers pos (Nat.lt_succ_self pos)).2
      rw [near.minmaxPoint_eq inQueue] at covers
      rw [getD_cons_succ]
      exact covers
  have behind : ((0 :: offsets sc).getD count 0 :: (offsets sc).drop count).Pairwise (· < ·) := by
    have length := length_offsets sc
    have within : count < (0 :: offsets sc).length := by
      rw [length_cons]
      omega
    have rest := near.ascending.sublist (drop_sublist count _)
    rwa [drop_eq_getElem_cons within, ← getD_eq_getElem _ 0 within, drop_succ_cons] at rest
  rw [pairwise_cons] at behind
  have offsets_eq : offsets (Stepping.afterMove sc (stepMove interval count add) base) =
      ((offsets sc).drop count).map (· - (UInt32.ofInt (position interval add count)).toNat) := by
    rw [offsets, offsets, ← map_drop, map_map, usable.queue_afterMove]
    apply map_congr_left
    intro clock member
    have above := behind.1 (clock - sc.lastStepClock.toUInt32).toNat
      (by rw [offsets, ← map_drop]; exact mem_map_of_mem member)
    have minus : clock - (Stepping.afterMove sc (stepMove interval count add)
        base).lastStepClock.toUInt32 = clock - sc.lastStepClock.toUInt32 -
          UInt32.ofInt (position interval add count) := by
      simp only [usable.toUInt32_lastStepClock near.windowed, UInt32.sub_eq_add_neg, UInt32.neg_add,
        UInt32.add_assoc]
    rw [minus, UInt32.toNat_sub_of_le _ _ (by rw [UInt32.le_iff_toNat_le]; omega)]
    rfl
  refine ⟨?_, ?_, near.maxError_le⟩
  · rw [offsets_eq, pairwise_cons, pairwise_map]
    constructor
    · intro offset member
      rcases mem_map.mp member with ⟨old, isOld, rfl⟩
      have above := behind.1 old isOld
      omega
    apply behind.2.imp_of_mem
    intro earlier later isEarlier _ ascends
    have above := behind.1 earlier isEarlier
    omega
  · intro offset member
    rw [offsets_eq] at member
    rcases mem_map.mp member with ⟨old, isOld, rfl⟩
    have bound := near.near old (mem_of_mem_drop isOld)
    omega

end Near

end CentauriCarbon.Stepping
