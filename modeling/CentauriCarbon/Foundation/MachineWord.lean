import Mathlib.Algebra.Order.Ring.Int

/-! # Machine words

The unsigned comparison of 64-bit words as a bounded linear order, and the conversions
between 32-bit words and integers where nothing wraps.
-/

namespace CentauriCarbon

instance instLinearOrderUInt64 : LinearOrder UInt64 where
  le_refl _ := UInt64.le_refl _
  le_trans _ _ _ := UInt64.le_trans
  lt_iff_le_not_ge left right := by
    rw [UInt64.lt_iff_toNat_lt, UInt64.le_iff_toNat_le, UInt64.le_iff_toNat_le]
    omega
  le_antisymm _ _ := UInt64.le_antisymm
  le_total left right := UInt64.le_total left right
  toDecidableLE := inferInstance
  toDecidableLT := inferInstance
  toDecidableEq := inferInstance

instance instOrderTopUInt64 : OrderTop UInt64 where
  top := 0xffffffffffffffff
  le_top word := by
    have bound := word.toNat_lt
    rw [UInt64.le_iff_toNat_le]
    change word.toNat ≤ 0xffffffffffffffff
    omega

namespace UInt32

theorem toNat_ofInt_of_lt (nonneg : 0 ≤ value) (small : value < 2 ^ 32) :
    ((UInt32.ofInt value).toNat : Int) = value := by
  rw [UInt32.ofInt, Int.emod_eq_of_lt nonneg (by simpa using small), UInt32.toNat_ofNat']
  omega

theorem ofInt_natCast (value : Nat) : UInt32.ofInt value = UInt32.ofNat value := by
  apply UInt32.toNat.inj
  rw [UInt32.ofInt, UInt32.toNat_ofNat', UInt32.toNat_ofNat']
  omega

theorem toInt_toInt32_of_lt {word : UInt32} (small : word.toNat < 2 ^ 31) :
    word.toInt32.toInt = word.toNat := by
  change word.toBitVec.toInt = word.toBitVec.toNat
  rw [BitVec.toInt_eq_toNat_cond, if_pos]
  change 2 * word.toNat < 2 ^ 32
  omega

theorem toInt16_ofInt_toInt (word : Int16) : (UInt32.ofInt word.toInt).toUInt16.toInt16 = word := by
  have below := word.toBitVec.toInt_lt
  have above := word.toBitVec.le_toInt
  apply Int16.toBitVec_inj.mp
  apply BitVec.eq_of_toInt_eq
  change word.toInt < 2 ^ 15 at below
  change -2 ^ 15 ≤ word.toInt at above
  rw [UInt16.toBitVec_toInt16, UInt32.toBitVec_toUInt16, UInt32.ofInt, UInt32.toBitVec_ofNat']
  rw [BitVec.toInt_setWidth, BitVec.toNat_ofNat, Int.bmod, Int16.toInt_toBitVec]
  omega

end UInt32

theorem UInt64.toNat_add_of_lt {left right : UInt64} (fits : left.toNat + right.toNat < 2 ^ 64) :
    (left + right).toNat = left.toNat + right.toNat := by
  rw [UInt64.toNat_add, Nat.mod_eq_of_lt fits]

end CentauriCarbon
