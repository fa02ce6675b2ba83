import Mathlib.Tactic.LinearCombination
import Mathlib.Tactic.Positivity
import Mathlib.Tactic.Ring

/-! # Variable length quantities

A signed integer as 7-bit groups, most significant first, in which every byte but the
last carries a continuation bit. A leading group with both of its top bits set stands
for a negative number. `join_eq` says that enough groups determine the integer modulo
a power of two.
-/

namespace CentauriCarbon.Vlq

def group (value : Int) (index : Nat) : Int := value / 128 ^ index % 128

theorem group_nonneg (value : Int) (index : Nat) : 0 ≤ group value index :=
  Int.emod_nonneg _ (by decide)

def bytes (value : Int) : Nat → List UInt8
  | 0 => [UInt8.ofNat (group value 0).toNat]
  | last + 1 => UInt8.ofNat ((group value (last + 1)).toNat + 128) :: bytes value last

theorem bytes_congr (same : ∀ index ≤ last, group left index = group right index) :
    bytes left last = bytes right last := by
  induction last with
  | zero => rw [bytes, bytes, same 0 (Nat.le_refl 0)]
  | succ last induction =>
    rw [bytes, bytes, same (last + 1) le_rfl,
      induction fun index below => same index (Nat.le_succ_of_le below)]

def leading (group : Int) : Int := if 96 ≤ group then group - 128 else group

def join (value : Int) (last : Nat) : Int :=
  leading (group value last) * 128 ^ last + value % 128 ^ last

/-- `last + 1` groups are enough: the number is in the range of that many groups, or
they cover all bits. -/
def Fits (bits : Nat) (value : Int) (last : Nat) : Prop :=
  (-32 * 128 ^ last ≤ value ∧ value < 96 * 128 ^ last) ∨ bits ≤ 7 * (last + 1)

theorem emod_pow_succ (value : Int) (index : Nat) :
    value % 128 ^ (index + 1) = group value index * 128 ^ index + value % 128 ^ index := by
  have positive : (0 : Int) ≤ 128 ^ index := by positivity
  rw [group, Int.emod_def value (128 ^ (index + 1)), Int.emod_def value (128 ^ index),
    Int.emod_def (value / 128 ^ index) 128, Int.ediv_ediv_of_nonneg positive, pow_succ]
  ring

/-- A leading group differs from the quotient it was taken from by a multiple of its
own modulus, and not at all when the quotient is in range. -/
theorem leading_eq (quotient : Int) : ∃ wraps, leading (quotient % 128) = quotient + wraps * 128 ∧
      (-32 ≤ quotient → quotient < 96 → wraps = 0) := by
  unfold leading
  split
  · exact ⟨-(quotient / 128) - 1, by omega, by omega⟩
  · exact ⟨-(quotient / 128), by omega, by omega⟩

theorem join_eq (fits : Fits bits value last) :
    ∃ wraps, join value last = value + wraps * 2 ^ bits := by
  have positive : (0 : Int) < 128 ^ last := by positivity
  rcases leading_eq (value / 128 ^ last) with ⟨wraps, equal, exact_in_range⟩
  have split := Int.emod_add_mul_ediv value (128 ^ last)
  rw [join, group, equal]
  rcases fits with ⟨low, high⟩ | covered
  · have none := exact_in_range
      ((Int.le_ediv_iff_mul_le positive).mpr low) ((Int.ediv_lt_iff_lt_mul positive).mpr high)
    refine ⟨0, ?_⟩
    rw [none]
    linear_combination split
  refine ⟨wraps * 2 ^ (7 * (last + 1) - bits), ?_⟩
  have weight : (128 : Int) * 128 ^ last = 2 ^ (7 * (last + 1) - bits) * 2 ^ bits := by
    rw [← pow_add, Nat.sub_add_cancel covered, ← pow_succ', show (128 : Int) = 2 ^ 7 by rfl,
      ← pow_mul]
  linear_combination split + wraps * weight

end CentauriCarbon.Vlq
