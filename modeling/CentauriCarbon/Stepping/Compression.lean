import CentauriCarbon.Stepping.StepCompress
import Mathlib.Algebra.Order.Ring.Abs
import Mathlib.Tactic.Ring
import Mathlib.Tactic.Linarith

/-! # Validity of the compression

`compress_bisect_add` returns a move whose steps all lie in their windows, and
`check_line` accepts it, if `max_error` is at most 8192: then none of the sums and products
of the search leaves the range of an `int32_t`.
-/

namespace CentauriCarbon.Stepping

theorem int32_eq (low : -2 ^ 31 ≤ value) (high : value < 2 ^ 31) : int32 value = value := by
  rw [int32]
  exact Int.bmod_eq_of_le (by omega) (by omega)

theorem idivUp_le_iff (positive : 0 < d) (fits : n + d ≤ 2 ^ 31) :
    idivUp n d ≤ bound ↔ n ≤ bound * d := by
  rw [idivUp]
  split
  case isTrue nonneg =>
    rw [int32_eq (by omega) (by omega), Int.tdiv_eq_ediv_of_nonneg (by omega)]
    rw [← Int.lt_add_one_iff, Int.ediv_lt_iff_lt_mul positive, add_mul]
    omega
  case isFalse negative =>
    have opposite : n.tdiv d = -((-n) / d) := by
      rw [← Int.tdiv_eq_ediv_of_nonneg (by omega), Int.neg_tdiv, neg_neg]
    rw [opposite, neg_le, Int.le_ediv_iff_mul_le positive]
    constructor
    · intro bounded
      linarith
    · intro bounded
      linarith

theorem le_idivDown_iff (positive : 0 < d) (fits : -2 ^ 31 < n - d) :
    bound ≤ idivDown n d ↔ bound * d ≤ n := by
  rw [idivDown]
  split
  case isTrue nonneg =>
    rw [Int.tdiv_eq_ediv_of_nonneg nonneg, Int.le_ediv_iff_mul_le positive]
  case isFalse negative =>
    have opposite : (n - d + 1).tdiv d = -((-(n - d + 1)) / d) := by
      rw [← Int.tdiv_eq_ediv_of_nonneg (by omega), Int.neg_tdiv, neg_neg]
    rw [int32_eq (by omega) (by omega), opposite, le_neg, ← Int.lt_add_one_iff,
      Int.ediv_lt_iff_lt_mul positive]
    constructor
    · intro bounded
      linarith
    · intro bounded
      linarith

theorem raiseTo_le_iff (positive : 0 < d) (low_ge : -2 ^ 31 ≤ low * d) (low_lt : low * d < 2 ^ 31)
    (target_ge : -2 ^ 31 ≤ target) (fits : target + d ≤ 2 ^ 31) :
    raiseTo low d target ≤ bound ↔ low ≤ bound ∧ target ≤ bound * d := by
  rw [raiseTo, int32_eq low_ge low_lt, int32_eq target_ge (by omega)]
  split
  case isTrue raised =>
    rw [idivUp_le_iff positive fits]
    refine (and_iff_right_of_imp fun reached => ?_).symm
    exact (lt_of_mul_lt_mul_right (lt_of_lt_of_le raised reached) positive.le).le
  case isFalse kept =>
    refine (and_iff_left_of_imp fun bounded => ?_).symm
    exact (not_lt.mp kept).trans (mul_le_mul_of_nonneg_right bounded positive.le)

theorem le_lowerTo_iff (positive : 0 < d) (high_ge : -2 ^ 31 ≤ high * d)
    (high_lt : high * d < 2 ^ 31) (target_lt : target < 2 ^ 31) (fits : -2 ^ 31 < target - d) :
    bound ≤ lowerTo high d target ↔ bound ≤ high ∧ bound * d ≤ target := by
  rw [lowerTo, int32_eq high_ge high_lt, int32_eq (by omega) target_lt]
  split
  case isTrue lowered =>
    rw [le_idivDown_iff positive fits]
    refine (and_iff_right_of_imp fun reached => ?_).symm
    exact (lt_of_mul_lt_mul_right (lt_of_le_of_lt reached lowered) positive.le).le
  case isFalse kept =>
    refine (and_iff_left_of_imp fun bounded => ?_).symm
    exact (mul_le_mul_of_nonneg_right bounded positive.le).trans (not_lt.mp kept)

/-! ## Sequences of steps -/

def triangle (count : Nat) : Int := (count * (count - 1) / 2 : Nat)

/-- The time of step number `count` of a sequence, relative to the last step before it. -/
def position (interval add : Int) (count : Nat) : Int := add * triangle count + interval * count

theorem triangle_succ (count : Nat) : triangle (count + 1) = triangle count + count := by
  have doubled : (count + 1) * count / 2 = count * (count - 1) / 2 + count := by
    cases count with
    | zero => rfl
    | succ count =>
      have doubled : (count + 1 + 1) * (count + 1) = (count + 1) * count + (count + 1) * 2 := by
        ring
      rw [Nat.add_sub_cancel, doubled, Nat.add_mul_div_right _ _ (by omega)]
  rw [triangle, triangle, Nat.add_sub_cancel, doubled]
  push_cast
  rfl

theorem two_mul_triangle (count : Nat) : 2 * triangle count = count * (count - 1) := by
  induction count with
  | zero => rfl
  | succ count induction =>
    rw [triangle_succ, mul_add, induction]
    push_cast
    ring

theorem triangle_nonneg (count : Nat) : 0 ≤ triangle count := Int.natCast_nonneg _

theorem addFactor_eq (small : triangle count < 2 ^ 30) : addFactor count = triangle count := by
  have doubled := two_mul_triangle count
  have nonneg := triangle_nonneg count
  have product : ((count * (count - 1) : Nat) : Int) = 2 * triangle count := by
    cases count with
    | zero => rfl
    | succ count =>
      rw [doubled]
      push_cast
      ring
  rw [addFactor, product, int32_eq (by omega) (by omega), Int.mul_tdiv_cancel_left _ (by decide)]

@[simp] theorem position_zero (interval add : Int) : position interval add 0 = 0 := by
  simp [position, triangle]

theorem position_succ (interval add : Int) (count : Nat) :
    position interval add (count + 1) = position interval add count + (interval + add * count) := by
  rw [position, position, triangle_succ]
  push_cast
  ring

def Covers (sc : StepCompress) (interval add : Int) (count : Nat) : Prop :=
  ∀ pos < count, (minmaxPoint sc pos).minp ≤ position interval add (pos + 1) ∧
    position interval add (pos + 1) ≤ (minmaxPoint sc pos).maxp

variable {sc : StepCompress} {count : Nat} {interval add : Int} {range : AddRange} {best : Best}

theorem Covers.succ (covers : Covers sc interval add count)
    (atLeast : (minmaxPoint sc count).minp ≤ position interval add (count + 1))
    (atMost : position interval add (count + 1) ≤ (minmaxPoint sc count).maxp) :
    Covers sc interval add (count + 1) := by
  intro pos inside
  by_cases last : pos = count
  · rw [last]
    exact ⟨atLeast, atMost⟩
  · exact covers pos (by omega)

/-- The windows of the queued steps are non-empty, narrow, disjoint and ascending, within
`CLOCK_DIFF_MAX` of the last step. -/
structure Windowed (sc : StepCompress) : Prop where
  positive : ∀ pos < sc.queue.length, 1 ≤ (minmaxPoint sc pos).minp
  nonempty : ∀ pos < sc.queue.length, (minmaxPoint sc pos).minp ≤ (minmaxPoint sc pos).maxp
  near : ∀ pos < sc.queue.length, (minmaxPoint sc pos).maxp < 0x30000000
  ascending : ∀ pos, pos + 1 < sc.queue.length →
    (minmaxPoint sc pos).maxp < (minmaxPoint sc (pos + 1)).minp
  maxError_le : sc.maxError.toNat ≤ 8192
  narrow : 0 < sc.queue.length → (minmaxPoint sc 0).maxp ≤ (minmaxPoint sc 0).minp + 8192

structure Usable (sc : StepCompress) (interval : Int) (count : Nat) (add : Int) : Prop where
  nonzero : 1 ≤ count
  inQueue : count ≤ sc.queue.length
  inRange : count ≤ 65535
  addAtLeast : -0x8000 ≤ add
  addAtMost : add ≤ 0x7fff
  covers : Covers sc interval add count

section

variable (windowed : Windowed sc) (usable : Usable sc interval count add) (pos : Nat)
include windowed usable

theorem Usable.interval_pos (inside : pos < count) : 1 ≤ interval + add * pos := by
  have inQueue := usable.inQueue
  have next := (usable.covers pos inside).1
  rw [position_succ] at next
  cases pos with
  | zero =>
    have positive := windowed.positive 0 (by omega)
    rw [position_zero] at next
    omega
  | succ pos =>
    have before := (usable.covers pos (by omega)).2
    have ascending := windowed.ascending pos (by omega)
    omega

theorem Usable.position_nonneg (inside : pos ≤ count) : 0 ≤ position interval add pos := by
  cases pos with
  | zero => rw [position_zero]
  | succ pos =>
    have inQueue := usable.inQueue
    have positive := windowed.positive pos (by omega)
    exact le_trans (by omega) (usable.covers pos (by omega)).1

theorem Usable.position_lt (inside : pos ≤ count) : position interval add pos < 0x30000000 := by
  cases pos with
  | zero =>
    rw [position_zero]
    omega
  | succ pos =>
    have inQueue := usable.inQueue
    exact lt_of_le_of_lt (usable.covers pos (by omega)).2 (windowed.near pos (by omega))

theorem Usable.interval_lt (inside : pos < count) : interval + add * pos < 0x30000000 := by
  have reached := usable.position_lt windowed (pos + 1) inside
  have nonneg := usable.position_nonneg windowed pos (by omega)
  rw [position_succ] at reached
  omega

theorem Usable.interval_bounds : 1 ≤ interval ∧ interval < 0x30000000 := by
  have positive := usable.interval_pos windowed 0 usable.nonzero
  have small := usable.interval_lt windowed 0 usable.nonzero
  simp only [Nat.cast_zero, mul_zero, add_zero] at positive small
  exact ⟨positive, small⟩

/-- No product that the search forms for the sequence or its next step is large. -/
structure Moderate (interval : Int) (count : Nat) (add : Int) : Prop where
  term_gt : -0x30000000 < add * triangle count
  term_lt : add * triangle count < 0x30000000
  change_ge : -0x800000 ≤ add * count
  change_le : add * count ≤ 0x800000
  count_le : add = 0 ∨ count ≤ 40134
  triangle_lt : add = 0 ∨ triangle count < 0x30000000
  next_lt : interval * (count + 1 : Nat) < 0x74000000
  interval_le : count ≤ 100 ∧ triangle count ≤ 4950 ∨
    interval ≤ 0x1000000 ∧ interval * (count + 1 : Nat) < 0x61000000

theorem Usable.moderate : Moderate interval count add := by
  have nonzero : (1 : Int) ≤ count := by exact_mod_cast usable.nonzero
  have addAtLeast := usable.addAtLeast
  have addAtMost := usable.addAtMost
  have last : 1 ≤ interval + add * (count - 1) := by
    have inside := usable.interval_pos windowed (count - 1) (Nat.sub_lt usable.nonzero (by omega))
    rwa [Nat.cast_sub usable.nonzero, Nat.cast_one] at inside
  have first := (usable.interval_bounds windowed).1
  have reached := usable.position_lt windowed count le_rfl
  have doubled : 2 * (add * triangle count) = add * count * (count - 1) := by
    rw [mul_left_comm, two_mul_triangle, mul_assoc]
  have early : (count : Int) ≤ interval * count := le_mul_of_one_le_left (by omega) first
  have late : (count : Int) ≤ interval * count + 2 * (add * triangle count) := by
    calc (count : Int) ≤ count * (interval + add * (count - 1)) :=
          le_mul_of_one_le_right (by omega) last
      _ = interval * count + 2 * (add * triangle count) := by
          rw [doubled]
          ring
  rw [position] at reached
  have term_gt : -0x30000000 < add * triangle count := by omega
  have term_lt : add * triangle count < 0x30000000 := by omega
  have triangle_lt : add = 0 ∨ triangle count < 0x30000000 := by
    have nonneg := triangle_nonneg count
    rcases lt_trichotomy add 0 with negative | zero | positive
    · right
      nlinarith
    · exact Or.inl zero
    · right
      nlinarith
  have twice := two_mul_triangle count
  have next : interval * ((count + 1 : Nat) : Int) = interval * count + interval := by
    push_cast
    ring
  constructor
  · exact term_gt
  · exact term_lt
  · by_contra large
    nlinarith
  · by_contra large
    nlinarith
  · refine triangle_lt.imp_right fun small => ?_
    by_contra large
    have above : (40135 : Int) ≤ count := by omega
    nlinarith
  · exact triangle_lt
  · rw [next]
    by_cases short : (count : Int) ≤ 100
    · nlinarith
    · nlinarith
  · by_cases short : count ≤ 100
    · have few : (count : Int) ≤ 100 := by omega
      exact Or.inl ⟨short, by nlinarith⟩
    right
    have above : (101 : Int) ≤ count := by omega
    have small : interval ≤ 0x1000000 := by nlinarith
    exact ⟨small, by omega⟩

end

theorem Moderate.triangle_le (moderate : Moderate interval count add)
    (short : add ≠ 0 ∨ count ≤ 0x200) : triangle count < 0x30000000 ∧ count ≤ 40134 := by
  by_cases zero : add = 0
  · have few := short.resolve_left (not_not_intro zero)
    have doubled := two_mul_triangle count
    have bound : (count : Int) * (count - 1) ≤ 0x200 * 0x200 := by nlinarith
    omega
  · exact ⟨moderate.triangle_lt.resolve_left zero, moderate.count_le.resolve_left zero⟩

theorem Moderate.mul_addFactor (moderate : Moderate interval count add) :
    add * addFactor count = add * triangle count ∧
      add * addFactor (count + 1) = add * triangle count + add * count := by
  by_cases zero : add = 0
  · simp [zero]
  · have small := moderate.triangle_le (Or.inl zero)
    have next := triangle_succ count
    rw [addFactor_eq (by omega), addFactor_eq (by omega), next, mul_add]
    exact ⟨rfl, rfl⟩

/-! ## The inner loop -/

/-- What the inner loop guarantees about its result. -/
def Longest.Spec (sc : StepCompress) (add : Int) (limit : Nat)
    (mininterval maxinterval : Int) : Longest → Prop
  | .exhausted interval reached => Usable sc interval reached add
  | .blocked interval reached nextmininterval nextmaxinterval nextpoint =>
    reached < limit ∧ Usable sc interval reached add ∧
      mininterval ≤ interval ∧ interval ≤ maxinterval ∧
      nextpoint = minmaxPoint sc reached ∧
      (position interval add (reached + 1) < nextpoint.minp → nextmaxinterval = interval) ∧
      (nextpoint.minp ≤ position interval add (reached + 1) →
        mininterval ≤ nextmininterval ∧ nextmininterval ≤ interval)

theorem Longest.Spec.widen {longest : Longest}
    (spec : longest.Spec sc add limit nextmin nextmax)
    (lower : mininterval ≤ nextmin) (upper : nextmax ≤ maxinterval) :
    longest.Spec sc add limit mininterval maxinterval := by
  cases longest with
  | exhausted interval reached => exact spec
  | blocked interval reached low high point =>
    rcases spec with ⟨short, usable, above, below, same, shortCase, longCase⟩
    refine ⟨short, usable, lower.trans above, below.trans upper, same, shortCase, ?_⟩
    intro long
    have bounds := longCase long
    exact ⟨lower.trans bounds.1, bounds.2⟩

theorem findLongest_spec (windowed : Windowed sc) (remaining count : Nat)
    (mininterval maxinterval : Int) (within : count + remaining ≤ min sc.queue.length 65535)
    (range : mininterval ≤ maxinterval)
    (usable : ∀ interval, mininterval ≤ interval → interval ≤ maxinterval →
      Usable sc interval count add) :
    (findLongest sc add remaining count mininterval maxinterval).Spec sc add
      (count + remaining) mininterval maxinterval := by
  induction remaining generalizing count mininterval maxinterval with
  | zero => exact usable maxinterval range le_rfl
  | succ remaining induction =>
    have positive : (0 : Int) < ((count + 1 : Nat) : Int) := by omega
    have inside : count < sc.queue.length := by omega
    have window := windowed.positive count inside
    have nonempty := windowed.nonempty count inside
    have near := windowed.near count inside
    have lowest := usable mininterval le_rfl range
    have highest := usable maxinterval range le_rfl
    have atLeast := (lowest.interval_bounds windowed).1
    have lowModerate := lowest.moderate windowed
    have highModerate := highest.moderate windowed
    have reached : ∀ interval, position interval add (count + 1) =
        interval * ((count + 1 : Nat) : Int) + (add * triangle count + add * count) := by
      intro interval
      rw [position, add_comm, triangle_succ, mul_add]
    have lowProduct := mul_pos (by omega : 0 < mininterval) positive
    have highProduct := mul_pos (by omega : 0 < maxinterval) positive
    rcases lowModerate with ⟨term_gt, term_lt, change_ge, change_le, -, -, low_lt, -⟩
    have high_lt := highModerate.next_lt
    rw [findLongest, Nat.add_sub_cancel, highModerate.mul_addFactor.2]
    -- the new range is the old one cut to the window of the next point
    have lowIff : ∀ interval, raiseTo mininterval ((count + 1 : Nat) : Int)
        ((minmaxPoint sc count).minp - (add * triangle count + add * count)) ≤ interval ↔
        mininterval ≤ interval ∧
          (minmaxPoint sc count).minp ≤ position interval add (count + 1) := by
      intro interval
      rw [reached, raiseTo_le_iff positive (by omega) (by omega) (by omega) (by omega),
        sub_le_iff_le_add]
    have highIff : ∀ interval, interval ≤ lowerTo maxinterval ((count + 1 : Nat) : Int)
        ((minmaxPoint sc count).maxp - (add * triangle count + add * count)) ↔
        interval ≤ maxinterval ∧
          position interval add (count + 1) ≤ (minmaxPoint sc count).maxp := by
      intro interval
      rw [reached, le_lowerTo_iff positive (by omega) (by omega) (by omega) (by omega),
        le_sub_iff_add_le]
    generalize raiseTo mininterval _ _ = nextmin at lowIff ⊢
    generalize lowerTo maxinterval _ _ = nextmax at highIff ⊢
    have lower := ((lowIff nextmin).mp le_rfl).1
    have upper := ((highIff nextmax).mp le_rfl).1
    split
    case isTrue empty =>
      refine ⟨by omega, highest, range, le_rfl, rfl, ?_, ?_⟩
      · intro short
        exact le_antisymm upper ((highIff maxinterval).mpr ⟨le_rfl, by linarith⟩)
      · intro long
        exact ⟨lower, (lowIff maxinterval).mpr ⟨range, long⟩⟩
    case isFalse nonemptyRange =>
      have inside := induction (count + 1) nextmin nextmax (by omega)
        (not_lt.mp nonemptyRange) (by
          intro interval above below
          have low := (lowIff interval).mp above
          have high := (highIff interval).mp below
          have before := usable interval low.1 high.1
          exact { before with
            nonzero := by omega
            inQueue := by omega
            inRange := by omega
            covers := before.covers.succ low.2 high.2 })
      rw [show count + (remaining + 1) = count + 1 + remaining by omega]
      exact inside.widen lower upper

/-! ## The outer loop -/

structure AddRange.Sound (sc : StepCompress) (range : AddRange) : Prop where
  outer : range.outerMininterval ≤ range.outerMaxinterval
  outerAtLeast : (minmaxPoint sc 0).minp ≤ range.outerMininterval
  outerAtMost : range.outerMaxinterval ≤ (minmaxPoint sc 0).maxp
  minaddAtLeast : -0x8000 ≤ range.minadd
  maxaddAtMost : range.maxadd ≤ 0x7fff
  addAtLeast : range.minadd ≤ range.add
  addAtMost : range.add ≤ range.maxadd

theorem AddRange.Sound.usable (sound : range.Sound sc) (queued : 0 < sc.queue.length)
    (interval : Int) (above : range.outerMininterval ≤ interval)
    (below : interval ≤ range.outerMaxinterval) : Usable sc interval 1 range.add := by
  rcases sound with ⟨-, outerAtLeast, outerAtMost, minaddAtLeast, maxaddAtMost, addAtLeast,
    addAtMost⟩
  refine ⟨le_rfl, queued, by decide, by omega, by omega, ?_⟩
  intro pos first
  rw [Nat.lt_one_iff.mp first, position_succ, position_zero]
  simp only [Nat.cast_zero, mul_zero, add_zero, zero_add]
  omega

/-- What a round leaves to search after a sequence with the given interval. -/
structure AddRange.Cut (sc : StepCompress) (interval : Int) (range cut : AddRange) : Prop where
  outerMin : cut.outerMininterval ≤ interval
  outerMax : interval ≤ cut.outerMaxinterval
  outerAtLeast : (minmaxPoint sc 0).minp ≤ cut.outerMininterval
  outerAtMost : cut.outerMaxinterval ≤ (minmaxPoint sc 0).maxp
  add : cut.add = range.add
  minadd : range.minadd ≤ cut.minadd
  maxadd : cut.maxadd ≤ range.maxadd
  shrinks : range.add < cut.minadd ∨ cut.maxadd < range.add

section

variable {interval nextmininterval nextmaxinterval : Int} {limit count : Nat}
  (windowed : Windowed sc) (sound : range.Sound sc)
  (spec : (Longest.blocked interval count nextmininterval nextmaxinterval nextpoint).Spec sc
    range.add limit range.outerMininterval range.outerMaxinterval)
include windowed sound spec

theorem AddRange.bisect_cut :
    let cut := range.bisect interval count nextmininterval nextmaxinterval nextpoint
    range.Cut sc interval cut ∧ cut.minadd ≤ range.add + 1 ∧ range.add - 1 ≤ cut.maxadd := by
  rcases spec with ⟨_, usable, above, below, _, shortCase, longCase⟩
  rcases sound with ⟨outer, outerAtLeast, outerAtMost, minaddAtLeast, maxaddAtMost, addAtLeast,
    addAtMost⟩
  have moderate := usable.moderate windowed
  have nextreach : int32 (range.add * addFactor (count + 1) +
      interval * ((count + 1 : Nat) : Int)) = position interval range.add (count + 1) := by
    have reached := usable.position_lt windowed count le_rfl
    have nonneg := usable.position_nonneg windowed count le_rfl
    have bounds := usable.interval_bounds windowed
    have change_ge := moderate.change_ge
    have change_le := moderate.change_le
    have same : range.add * addFactor (count + 1) + interval * ((count + 1 : Nat) : Int) =
        position interval range.add count + interval + range.add * count := by
      rw [moderate.mul_addFactor.2, position]
      push_cast
      ring
    rw [same, int32_eq (by omega) (by omega), position_succ, add_assoc]
  rw [AddRange.bisect, nextreach]
  split
  case isTrue short =>
    have same := shortCase short
    rw [int32_eq (by omega) (by omega)]
    refine ⟨?_, le_rfl, by dsimp only; omega⟩
    constructor <;> dsimp only <;> omega
  case isFalse long =>
    have bounds := longCase (not_lt.mp long)
    rw [int32_eq (by omega) (by omega)]
    refine ⟨?_, by dsimp only; omega, le_rfl⟩
    constructor <;> dsimp only <;> omega

end

theorem AddRange.Cut.limitDeviation {cut : AddRange} (isCut : range.Cut sc interval cut)
    (sound : range.Sound sc) (maxError_le : sc.maxError.toNat ≤ 8192) (nonzero : 1 ≤ count)
    (inRange : count ≤ 65535) (low : cut.minadd ≤ range.add + 1)
    (high : range.add - 1 ≤ cut.maxadd) :
    let limited := cut.limitDeviation sc.maxError count
    range.Cut sc interval limited ∧ ∃ deviation : Nat, deviation * (count * count) ≤ 90112 ∧
      |limited.minadd - range.add| ≤ deviation + 1 ∧
      |limited.maxadd - range.add| ≤ deviation + 1 := by
  rcases sound with ⟨-, -, -, minaddAtLeast, maxaddAtMost, addAtLeast, addAtMost⟩
  rcases isCut with
    ⟨outerMin, outerMax, outerAtLeast, outerAtMost, sameAdd, minadd, maxadd, shrinks⟩
  rw [AddRange.limitDeviation]
  split
  case isTrue several =>
    have square : count * count ≤ 65535 * 65535 := Nat.mul_le_mul inRange inRange
    have quotient : (sc.maxError * quadraticDev / UInt32.ofNat (count * count)).toNat =
        sc.maxError.toNat * 11 / (count * count) := by
      have eleven : quadraticDev.toNat = 11 := rfl
      rw [UInt32.toNat_div, UInt32.toNat_mul, UInt32.toNat_ofNat', eleven,
        Nat.mod_eq_of_lt (by omega), Nat.mod_eq_of_lt (by omega)]
    have few : sc.maxError.toNat * 11 / (count * count) * (count * count) ≤ 90112 :=
      (Nat.div_mul_le_self _ _).trans (by omega)
    have small : sc.maxError.toNat * 11 / (count * count) ≤ 90112 :=
      (Nat.div_le_self _ _).trans (by omega)
    rw [← quotient] at few small
    rw [UInt32.toInt_toInt32_of_lt (by omega)]
    generalize (sc.maxError * quadraticDev / UInt32.ofNat (count * count)).toNat = errdelta
      at few small
    dsimp only
    rw [sameAdd, int32_eq (by omega) (by omega), int32_eq (by omega) (by omega)]
    refine ⟨?_, errdelta, few, ?_, ?_⟩
    · constructor <;> dsimp only <;> omega
    · rw [abs_le]
      omega
    · rw [abs_le]
      omega
  case isFalse single =>
    have one : count = 1 := by omega
    refine ⟨⟨outerMin, outerMax, outerAtLeast, outerAtMost, sameAdd, minadd, maxadd, shrinks⟩,
      0x10000, by rw [one]; decide, ?_, ?_⟩
    · rw [abs_le]
      omega
    · rw [abs_le]
      omega

theorem Moderate.product_bounds (moderate : Moderate interval count add) (nonzero : 1 ≤ count)
    (short : add ≠ 0 ∨ count ≤ 0x200) {deviation : Nat} {value : Int}
    (small : deviation * (count * count) ≤ 90112) (close : |value - add| ≤ deviation + 1) :
    -2 ^ 31 ≤ value * triangle (count + 1) ∧ value * triangle (count + 1) < 2 ^ 31 := by
  have bounds := moderate.triangle_le short
  have nonneg := triangle_nonneg (count + 1)
  have doubled := two_mul_triangle (count + 1)
  have square : triangle (count + 1) ≤ (count : Int) * count := by
    push_cast at doubled
    nlinarith
  have product : |(value - add) * triangle (count + 1)| ≤ 90112 + triangle (count + 1) := by
    rw [abs_mul, abs_of_nonneg nonneg]
    calc |value - add| * triangle (count + 1)
        ≤ (deviation + 1) * triangle (count + 1) := mul_le_mul_of_nonneg_right close nonneg
      _ = deviation * triangle (count + 1) + triangle (count + 1) := by ring
      _ ≤ deviation * (count * count) + triangle (count + 1) :=
          Int.add_le_add_right (mul_le_mul_of_nonneg_left square (Int.natCast_nonneg _)) _
      _ ≤ 90112 + triangle (count + 1) := Int.add_le_add_right (by exact_mod_cast small) _
  rw [abs_le, sub_mul] at product
  have exact : add * triangle (count + 1) = add * triangle count + add * count := by
    rw [triangle_succ, mul_add]
  rw [exact] at product
  have term_gt := moderate.term_gt
  have term_lt := moderate.term_lt
  have change_ge := moderate.change_ge
  have change_le := moderate.change_le
  have next := triangle_succ count
  omega

section

variable {cut : AddRange} (windowed : Windowed sc) (usable : Usable sc interval count range.add)
  (inside : count < sc.queue.length) (isCut : range.Cut sc interval cut)
  (short : range.add ≠ 0 ∨ count ≤ 0x200)
include windowed usable inside isCut short

/-- The bounds that the next point puts on `add` are computed without overflow. -/
theorem AddRange.Cut.limitReach {deviation : Nat} (small : deviation * (count * count) ≤ 90112)
    (low : |cut.minadd - range.add| ≤ deviation + 1)
    (high : |cut.maxadd - range.add| ≤ deviation + 1) :
    range.Cut sc interval (cut.limitReach count (minmaxPoint sc count)) := by
  have nonzero := usable.nonzero
  have moderate := usable.moderate windowed
  have few := moderate.triangle_le short
  have next := triangle_succ count
  have nonneg := triangle_nonneg count
  have window := windowed.positive count inside
  have nonempty := windowed.nonempty count inside
  have near := windowed.near count inside
  have narrow := windowed.narrow (by omega)
  have first := windowed.positive 0 (by omega)
  have minBounds := moderate.product_bounds nonzero short small low
  have maxBounds := moderate.product_bounds nonzero short small high
  have bounds := usable.interval_bounds windowed
  -- the window of the next point lies behind the last step of the sequence
  have behind : position interval range.add count ≤ (minmaxPoint sc count).maxp := by
    have last := (usable.covers (count - 1) (by omega)).2
    have ascending := windowed.ascending (count - 1) (by omega)
    rw [Nat.sub_add_cancel nonzero] at last ascending
    omega
  rcases isCut with
    ⟨outerMin, outerMax, outerAtLeast, outerAtMost, sameAdd, minadd, maxadd, shrinks⟩
  rcases moderate with ⟨term_gt, term_lt, -, -, -, -, next_lt, interval_le⟩
  have next_eq : interval * ((count + 1 : Nat) : Int) = interval * count + interval := by
    push_cast
    ring
  have most : cut.outerMaxinterval * ((count + 1 : Nat) : Int) ≤
      interval * ((count + 1 : Nat) : Int) + 8192 * ((count + 1 : Nat) : Int) := by
    rw [← add_mul]
    exact mul_le_mul_of_nonneg_right (by omega) (by omega)
  have least : cut.outerMininterval * ((count + 1 : Nat) : Int) ≤
      interval * ((count + 1 : Nat) : Int) := mul_le_mul_of_nonneg_right outerMin (by omega)
  have mostPos := mul_pos (by omega : 0 < cut.outerMaxinterval)
    (by omega : (0 : Int) < ((count + 1 : Nat) : Int))
  have leastPos := mul_pos (by omega : 0 < cut.outerMininterval)
    (by omega : (0 : Int) < ((count + 1 : Nat) : Int))
  rw [position] at behind
  rw [AddRange.limitReach, addFactor_eq (by omega)]
  have raised : cut.minadd ≤ raiseTo cut.minadd (triangle (count + 1))
      ((minmaxPoint sc count).minp - cut.outerMaxinterval * ((count + 1 : Nat) : Int)) :=
    ((raiseTo_le_iff (by omega) minBounds.1 minBounds.2 (by omega) (by omega)).mp le_rfl).1
  have lowered : lowerTo cut.maxadd (triangle (count + 1))
      ((minmaxPoint sc count).maxp - cut.outerMininterval * ((count + 1 : Nat) : Int)) ≤
      cut.maxadd :=
    ((le_lowerTo_iff (by omega) maxBounds.1 maxBounds.2 (by omega) (by omega)).mp le_rfl).1
  exact ⟨outerMin, outerMax, outerAtLeast, outerAtMost, sameAdd, minadd.trans raised,
    lowered.trans maxadd, shrinks.imp (·.trans_le raised) lowered.trans_lt⟩

end

theorem AddRange.Cut.retry {cut : AddRange} (isCut : range.Cut sc interval cut)
    (sound : range.Sound sc) (more : cut.minadd ≤ cut.maxadd) :
    cut.retry.Sound sc ∧ cut.maxadd - cut.minadd < range.maxadd - range.minadd := by
  rcases sound with ⟨-, -, -, minaddAtLeast, maxaddAtMost, addAtLeast, addAtMost⟩
  rcases isCut with ⟨outerMin, outerMax, outerAtLeast, outerAtMost, -, minadd, maxadd, shrinks⟩
  have quarter : 0 ≤ (cut.maxadd - cut.minadd).tdiv 4 ∧
      (cut.maxadd - cut.minadd).tdiv 4 ≤ cut.maxadd - cut.minadd := by
    rw [Int.tdiv_eq_ediv_of_nonneg (by omega)]
    omega
  have width : int32 (cut.maxadd - cut.minadd) = cut.maxadd - cut.minadd :=
    int32_eq (by omega) (by omega)
  constructor
  · rw [AddRange.retry, width, int32_eq (by omega) (by omega)]
    constructor <;> dsimp only <;> omega
  · omega

structure Best.Sound (sc : StepCompress) (best : Best) : Prop where
  overall : Usable sc best.bestinterval best.bestcount best.bestadd
  zero : best.zerocount = 0 ∨ Usable sc best.zerointerval best.zerocount 0

theorem Best.Sound.result (sound : best.Sound sc) :
    ∃ interval count add, best.result = stepMove interval count add ∧
      Usable sc interval count add := by
  rw [Best.result]
  have nonzero := sound.overall.nonzero
  split
  case isTrue similar =>
    refine ⟨_, _, _, rfl, ?_⟩
    rcases sound.zero with unset | usable
    · omega
    · exact usable
  case isFalse => exact ⟨_, _, _, rfl, sound.overall⟩

theorem Best.record_sound (usable : Usable sc interval count add)
    (zero : best.zerocount = 0 ∨ Usable sc best.zerointerval best.zerocount 0) :
    (best.record interval count add).Sound sc := by
  refine ⟨usable, ?_⟩
  dsimp only [Best.record]
  split
  case isTrue none =>
    rw [none] at usable
    exact Or.inr usable
  case isFalse => exact zero

/-- A state of the search. Only the first round tries `add = 0`. -/
structure Searching (sc : StepCompress) (range : AddRange) (best : Best) : Prop where
  sound : range.Sound sc
  found : best = Best.start ∧ range.add = 0 ∨
    best.Sound sc ∧ (0 < range.minadd ∨ range.maxadd < 0)

section

variable (windowed : Windowed sc)
include windowed

/-- The first sequence found is recorded: every sequence reaches beyond `INT32_MIN`. -/
theorem Best.start_improvedBy (usable : Usable sc interval count add) :
    Best.start.improvedBy interval count add := by
  have nonneg := usable.position_nonneg windowed count le_rfl
  have reached := usable.position_lt windowed count le_rfl
  rw [position] at nonneg reached
  dsimp only [Best.improvedBy, Best.start]
  rw [(usable.moderate windowed).mul_addFactor.1, int32_eq (by omega) (by omega),
    Bool.or_eq_true, decide_eq_true_iff]
  exact Or.inl (by omega)

/-- The best sequence after a round, if there was one before or nothing was found yet. -/
theorem Best.improved_sound (usable : Usable sc interval count add)
    (sound : best = Best.start ∨ best.Sound sc) :
    (if best.improvedBy interval count add then best.record interval count add
      else best).Sound sc := by
  rcases sound with fresh | sound
  · rw [fresh, if_pos (Best.start_improvedBy windowed usable)]
    exact Best.record_sound usable (Or.inl rfl)
  · split
    · exact Best.record_sound usable sound.zero
    · exact sound

/-- A round of the search ends it with a usable move, or goes on with fewer values of `add`. -/
theorem Searching.round (searching : Searching sc range best) (queued : 0 < sc.queue.length) :
    (∃ interval count add, Usable sc interval count add ∧
      ∀ rounds, searchAdd sc (rounds + 1) range best = stepMove interval count add) ∨
    ∃ cut next, Searching sc cut next ∧ next.Sound sc ∧
      cut.maxadd - cut.minadd < range.maxadd - range.minadd ∧
      ∀ rounds, searchAdd sc (rounds + 1) range best = searchAdd sc rounds cut next := by
  have sound := searching.sound
  have spec := findLongest_spec windowed (min sc.queue.length 65535 - 1) 1
    range.outerMininterval range.outerMaxinterval (by omega) sound.outer (sound.usable queued)
  simp only [searchAdd]
  revert spec
  cases findLongest sc range.add (min sc.queue.length 65535 - 1) 1
      range.outerMininterval range.outerMaxinterval with
  | exhausted interval count =>
    intro usable
    exact Or.inl ⟨_, _, _, usable, fun _ => rfl⟩
  | blocked interval count nextmin nextmax point =>
    intro spec
    have inside := spec.1
    have usable := spec.2.1
    have improved := Best.improved_sound windowed usable (searching.found.imp (·.1) (·.1))
    dsimp only
    split
    · rcases improved.result with ⟨interval, count, add, result, usable⟩
      exact Or.inl ⟨interval, count, add, usable, fun _ => result⟩
    next goesOn =>
    split
    · rcases improved.result with ⟨interval, count, add, result, usable⟩
      exact Or.inl ⟨interval, count, add, usable, fun _ => result⟩
    next more =>
    have short : range.add ≠ 0 ∨ count ≤ 0x200 := by
      rcases searching.found with ⟨fresh, -⟩ | ⟨-, excluded⟩
      · right
        rw [fresh] at goesOn
        exact not_lt.mp fun long => goesOn ⟨Best.start_improvedBy windowed usable, long⟩
      · left
        have atLeast := sound.addAtLeast
        have atMost := sound.addAtMost
        omega
    have bisected := AddRange.bisect_cut windowed sound spec
    have deviated := bisected.1.limitDeviation sound windowed.maxError_le usable.nonzero
      usable.inRange bisected.2.1 bisected.2.2
    rcases deviated with ⟨isCut, deviation, small, low, high⟩
    have reached := isCut.limitReach windowed usable (by omega) short small low high
    rw [← spec.2.2.2.2.1] at reached
    have retried := reached.retry sound (not_lt.mp more)
    refine Or.inr ⟨_, _, ⟨retried.1, Or.inr ⟨improved, ?_⟩⟩, improved, retried.2, fun _ => rfl⟩
    have minadd := reached.minadd
    have maxadd := reached.maxadd
    have shrinks := reached.shrinks
    dsimp only [AddRange.retry]
    rcases searching.found with ⟨-, zero⟩ | ⟨-, excluded⟩
    · rwa [zero] at shrinks
    · omega

theorem searchAdd_usable (queued : 0 < sc.queue.length) (rounds : Nat)
    (searching : Searching sc range best) (found : 0 < rounds ∨ best.Sound sc) :
    ∃ interval count add, searchAdd sc rounds range best = stepMove interval count add ∧
      Usable sc interval count add := by
  induction rounds generalizing range best with
  | zero => exact (found.resolve_left (by omega)).result
  | succ rounds induction =>
    rcases searching.round windowed queued with ⟨interval, count, add, usable, result⟩ |
      ⟨cut, next, goesOn, sound, -, result⟩
    · exact ⟨interval, count, add, result rounds, usable⟩
    · rw [result]
      exact induction goesOn (Or.inr sound)

theorem searching_start (queued : 0 < sc.queue.length) :
    Searching sc (.start (minmaxPoint sc 0)) .start where
  sound :=
    { outer := windowed.nonempty 0 queued
      outerAtLeast := le_rfl
      outerAtMost := le_rfl
      minaddAtLeast := le_rfl
      maxaddAtMost := le_rfl
      addAtLeast := by simp [AddRange.start]
      addAtMost := by simp [AddRange.start] }
  found := Or.inl ⟨rfl, rfl⟩

theorem compressBisectAdd_usable (queued : 0 < sc.queue.length) :
    ∃ interval count add, compressBisectAdd sc = stepMove interval count add ∧
      Usable sc interval count add :=
  searchAdd_usable windowed queued _ (searching_start windowed queued) (Or.inl (by decide))

/-! ## The check of the result -/

variable (usable : Usable sc interval count add) (pos : Nat)
include usable

theorem checkPoints_usable (remaining pos : Nat) (whole : pos + remaining = count) :
    checkPoints sc (UInt32.ofInt add) remaining pos (UInt32.ofInt (interval + add * pos))
      (UInt32.ofInt (position interval add pos)) := by
  induction remaining generalizing pos with
  | zero => rfl
  | succ remaining induction =>
    have inQueue := usable.inQueue
    have inside : pos < count := by omega
    have positive := usable.interval_pos windowed pos inside
    have small := usable.interval_lt windowed pos inside
    have reached := UInt32.toNat_ofInt_of_lt
      (usable.position_nonneg windowed (pos + 1) inside)
      ((usable.position_lt windowed (pos + 1) inside).trans (by decide))
    have low_pos := windowed.positive pos (by omega)
    have nonempty := windowed.nonempty pos (by omega)
    have near := windowed.near pos (by omega)
    have low := UInt32.toNat_ofInt_of_lt ((zero_le_one' Int).trans low_pos) (by omega)
    have high := UInt32.toNat_ofInt_of_lt
      ((zero_le_one' Int).trans (low_pos.trans nonempty)) (by omega)
    have word := UInt32.toNat_ofInt_of_lt ((zero_le_one' Int).trans positive) (by omega)
    have covers := usable.covers pos inside
    rw [checkPoints]
    rw [← UInt32.ofInt_add, ← position_succ, if_neg, if_neg, ← UInt32.ofInt_add,
      show interval + add * (pos : Int) + add = interval + add * ((pos + 1 : Nat) : Int) by
        push_cast
        ring]
    · exact induction (pos + 1) (by omega)
    · rw [ge_iff_le, UInt32.le_iff_toNat_le]
      change ¬ 0x80000000 ≤ _
      omega
    · rw [gt_iff_lt, UInt32.lt_iff_toNat_lt, UInt32.lt_iff_toNat_lt]
      omega

omit windowed in
theorem Usable.toNat_count : (stepMove interval count add).count.toNat = count := by
  have inRange := usable.inRange
  change (UInt16.ofNat count).toNat = count
  rw [UInt16.toNat_ofNat']
  omega

omit windowed in
theorem Usable.toInt_add : (stepMove interval count add).add.toInt = add := by
  have atLeast := usable.addAtLeast
  have atMost := usable.addAtMost
  exact Int16.toInt_ofInt_of_le (by omega) (by omega)

theorem Usable.toNat_interval :
    ((stepMove interval count add).interval.toNat : Int) = interval := by
  have bounds := usable.interval_bounds windowed
  exact UInt32.toNat_ofInt_of_lt (by omega) (by omega)

theorem checkLine_usable : checkLine sc (stepMove interval count add) := by
  have bounds := usable.interval_bounds windowed
  have nonzero := usable.nonzero
  have counted := usable.toNat_count
  have word := usable.toNat_interval windowed
  rw [checkLine, if_neg]
  · have points := checkPoints_usable windowed usable count 0 (by omega)
    simp only [Nat.cast_zero, mul_zero, add_zero, position_zero] at points
    rw [usable.toInt_add, counted]
    exact points
  rintro (zero | still | large)
  · rw [zero] at counted
    change 0 = count at counted
    omega
  · rw [still.1] at word
    change 0 = interval at word
    omega
  · rw [ge_iff_le, UInt32.le_iff_toNat_le] at large
    change 0x80000000 ≤ _ at large
    omega

end

end CentauriCarbon.Stepping
