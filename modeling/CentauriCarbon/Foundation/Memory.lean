import Mathlib.Algebra.Order.Ring.Int
import Mathlib.Data.List.Basic

/-! # Memories

A memory is a function from positions to values. `writeAt` and `readAt` copy a list to and from
consecutive positions; `window` reads consecutive positions of a circular memory and
`writeCircular` writes them, in the two pieces that the end of the memory makes of them.
-/

namespace CentauriCarbon

open List

section Memory

variable {Value : Type}

def writeAt (memory : Nat → Value) (position : Nat) (values : List Value) : Nat → Value :=
  fun index =>
    if index < position then memory index else (values[index - position]?).getD (memory index)

def readAt (memory : Nat → Value) (position count : Nat) : List Value :=
  (range count).map fun index => memory (position + index)

variable (memory : Nat → Value)

@[simp] theorem length_readAt (position count : Nat) :
    (readAt memory position count).length = count := by
  simp [readAt]

@[simp] theorem readAt_zero (position : Nat) : readAt memory position 0 = [] := rfl

@[simp] theorem writeAt_nil (position : Nat) : writeAt memory position [] = memory := by
  funext index
  simp [writeAt]

theorem readAt_add (position first second : Nat) : readAt memory position (first + second) =
      readAt memory position first ++ readAt memory (position + first) second := by
  rw [readAt, range_add, map_append, map_map]
  simp only [readAt, Function.comp_def, add_assoc]

theorem writeAt_of_lt (values : List Value) (before : index < position) :
    writeAt memory position values index = memory index := by
  rw [writeAt, if_pos before]

variable {values : List Value}

theorem writeAt_of_ge (after : position + values.length ≤ index) :
    writeAt memory position values index = memory index := by
  have beyond : values.length ≤ index - position := by omega
  rw [writeAt, getElem?_eq_none beyond]
  split <;> rfl

variable {index : Nat}

section

variable (position : Nat)

theorem writeAt_add (inside : index < values.length) :
    writeAt memory position values (position + index) = values[index] := by
  have notBefore : ¬position + index < position := by omega
  rw [writeAt, if_neg notBefore, Nat.add_sub_cancel_left, getElem?_eq_getElem inside,
    Option.getD_some]

theorem writeAt_cons (value : Value) (values : List Value) :
    writeAt memory position (value :: values) =
      writeAt (writeAt memory position [value]) (position + 1) values := by
  funext index
  rcases Nat.lt_trichotomy index position with before | here | after
  · simp [writeAt, before, Nat.lt_succ_of_lt before]
  · simp [writeAt, here]
  have next : index - position = index - (position + 1) + 1 := by omega
  have beyond : ¬index < position := by omega
  have notHere : ¬index < position + 1 := by omega
  simp [writeAt, beyond, notHere, next]

theorem writeAt_append (first second : List Value) : writeAt memory position (first ++ second) =
      writeAt (writeAt memory position first) (position + first.length) second := by
  induction first generalizing memory position with
  | nil => simp
  | cons value first induction =>
    rw [cons_append, writeAt_cons, induction, ← writeAt_cons, length_cons,
      add_assoc, add_comm 1]

theorem readAt_writeAt (values : List Value) :
    readAt (writeAt memory position values) position values.length = values := by
  apply ext_getElem
  · rw [length_readAt]
  intro index inside _
  rw [length_readAt] at inside
  simp only [readAt, getElem_map, getElem_range]
  exact writeAt_add memory position inside

theorem readAt_writeAt_part {values : List Value} {start count : Nat}
    (inside : start + count ≤ values.length) :
    readAt (writeAt memory position values) (position + start) count =
      (values.drop start).take count := by
  apply ext_getElem
  · rw [length_readAt, length_take, length_drop]
    omega
  intro index before _
  rw [length_readAt] at before
  simp only [readAt, getElem_map, getElem_range, getElem_take, getElem_drop, add_assoc]
  exact writeAt_add memory position (by omega)

end

/-! ## Circular memories -/

/-- The position that follows `start` by `offset` in a memory of the given size. -/
theorem add_mod_of_lt {size start offset : Nat} (inside : offset < size) : (start + offset) % size =
      if start % size + offset < size then start % size + offset
      else start % size + offset - size := by
  have start_lt : start % size < size := Nat.mod_lt _ (by omega)
  rw [← Nat.mod_add_mod]
  split
  next fits => exact Nat.mod_eq_of_lt fits
  next wraps =>
    rw [Nat.mod_eq_sub_mod (by omega)]
    exact Nat.mod_eq_of_lt (by omega)

def window (memory : Nat → Value) (size start count : Nat) : List Value :=
  (range count).map fun index => memory ((start + index) % size)

@[simp] theorem length_window (size start count : Nat) :
    (window memory size start count).length = count := by
  simp [window]

theorem window_add (size start first second : Nat) : window memory size start (first + second) =
      window memory size start first ++ window memory size (start + first) second := by
  rw [window, range_add, map_append, map_map]
  simp only [window, Function.comp_def, add_assoc]

theorem window_eq {size start count : Nat} (fits : count ≤ size) : window memory size start count =
      readAt memory (start % size) (min count (size - start % size)) ++
        readAt memory 0 (count - min count (size - start % size)) := by
  have joined : count = min count (size - start % size) +
      (count - min count (size - start % size)) := by omega
  conv_lhs => rw [joined, window_add]
  congr 1
  · apply map_congr_left
    intro index member
    have inside := mem_range.mp member
    rw [add_mod_of_lt (by omega), if_pos (by omega)]
  apply map_congr_left
  intro index member
  have inside := mem_range.mp member
  have start_lt : start % size < size := Nat.mod_lt _ (by omega)
  rw [add_assoc, add_mod_of_lt (by omega), if_neg (by omega)]
  congr 1
  omega

def writeCircular (memory : Nat → Value) (size start : Nat) (values : List Value) : Nat → Value :=
  let first := min values.length (size - start % size)
  writeAt (writeAt memory (start % size) (values.take first)) 0 (values.drop first)

theorem writeCircular_inside {size start : Nat} (fits : values.length ≤ size)
    (inside : index < values.length) :
    writeCircular memory size start values ((start + index) % size) = values[index] := by
  have start_lt : start % size < size := Nat.mod_lt _ (by omega)
  rw [add_mod_of_lt (by omega), writeCircular]
  split
  next before =>
    have notSecond : 0 + (values.drop (min values.length (size - start % size))).length ≤
        start % size + index := by
      rw [length_drop]
      omega
    rw [writeAt_of_ge _ notSecond, writeAt_add]
    · exact getElem_take
    · rw [length_take]
      omega
  next wraps =>
    have position : start % size + index - size =
        0 + (index - min values.length (size - start % size)) := by omega
    rw [position, writeAt_add]
    · rw [getElem_drop]
      congr 1
      omega
    · rw [length_drop]
      omega

theorem writeCircular_outside {size start : Nat} (outside : values.length ≤ index)
    (inside : index < size) : writeCircular memory size start values ((start + index) % size) =
      memory ((start + index) % size) := by
  rw [add_mod_of_lt inside, writeCircular]
  split
  next before =>
    rw [writeAt_of_ge, writeAt_of_ge]
    · rw [length_take]
      omega
    · rw [length_drop]
      omega
  next wraps =>
    rw [writeAt_of_ge, writeAt_of_lt]
    · omega
    · rw [length_drop]
      omega

theorem window_writeCircular (fits : used + values.length ≤ size) :
    window (writeCircular memory size (start + used) values) size start (used + values.length) =
      window memory size start used ++ values := by
  rw [window_add]
  congr 1
  · apply map_congr_left
    intro index member
    have inside := mem_range.mp member
    have behind : start + index + size = start + used + (index + size - used) := by omega
    rw [← Nat.add_mod_right, behind]
    exact writeCircular_outside memory (by omega) (by omega)
  apply ext_getElem
  · rw [length_window]
  intro index inside _
  rw [length_window] at inside
  simp only [window, getElem_map, getElem_range]
  exact writeCircular_inside memory (by omega) inside

end Memory

/-! ## Little-endian words -/

def wordOfBytes (byte0 byte1 byte2 byte3 : UInt8) : UInt32 :=
  ((byte3.toUInt32 <<< 8 ||| byte2.toUInt32) <<< 8 ||| byte1.toUInt32) <<< 8 ||| byte0.toUInt32

def wordBytes (word : UInt32) : List UInt8 :=
  [word.toUInt8, (word >>> 8).toUInt8, (word >>> 16).toUInt8, (word >>> 24).toUInt8]

def readWord (memory : Nat → UInt8) (position : Nat) : UInt32 :=
  wordOfBytes (memory position) (memory (position + 1)) (memory (position + 2))
    (memory (position + 3))

theorem toNat_shiftLeft_or {high : UInt32} (small : high.toNat < 2 ^ 24) (low : UInt8) :
    (high <<< 8 ||| low.toUInt32).toNat = high.toNat * 2 ^ 8 + low.toNat := by
  have bound := low.toNat_lt
  have shifted : (high <<< 8).toNat = high.toNat <<< 8 := by
    change high.toNat <<< 8 % 2 ^ 32 = _
    omega
  rw [UInt32.toNat_or, UInt8.toNat_toUInt32, shifted, ← Nat.shiftLeft_add_eq_or_of_lt (by omega),
    Nat.shiftLeft_eq]

variable (byte0 byte1 byte2 byte3 : UInt8)

theorem toNat_wordOfBytes : (wordOfBytes byte0 byte1 byte2 byte3).toNat =
      ((byte3.toNat * 2 ^ 8 + byte2.toNat) * 2 ^ 8 + byte1.toNat) * 2 ^ 8 + byte0.toNat := by
  have bound1 := byte1.toNat_lt
  have bound2 := byte2.toNat_lt
  have bound3 := byte3.toNat_lt
  have high : (byte3.toUInt32 <<< 8 ||| byte2.toUInt32).toNat =
      byte3.toNat * 2 ^ 8 + byte2.toNat := by
    rw [toNat_shiftLeft_or] <;> rw [UInt8.toNat_toUInt32]
    omega
  have middle : ((byte3.toUInt32 <<< 8 ||| byte2.toUInt32) <<< 8 ||| byte1.toUInt32).toNat =
      (byte3.toNat * 2 ^ 8 + byte2.toNat) * 2 ^ 8 + byte1.toNat := by
    rw [toNat_shiftLeft_or] <;> rw [high]
    omega
  rw [wordOfBytes, toNat_shiftLeft_or] <;> rw [middle]
  omega

theorem toNat_wordBytes (word : UInt32) : (wordBytes word).map UInt8.toNat =
      [word.toNat % 2 ^ 8, word.toNat / 2 ^ 8 % 2 ^ 8, word.toNat / 2 ^ 16 % 2 ^ 8,
        word.toNat / 2 ^ 24 % 2 ^ 8] := by
  simp only [wordBytes, map_cons, map_nil, UInt32.toNat_toUInt8,
    UInt32.toNat_shiftRight, Nat.shiftRight_eq_div_pow]
  rfl

theorem wordBytes_wordOfBytes :
    wordBytes (wordOfBytes byte0 byte1 byte2 byte3) = [byte0, byte1, byte2, byte3] := by
  have bound0 := byte0.toNat_lt
  have bound1 := byte1.toNat_lt
  have bound2 := byte2.toNat_lt
  have bound3 := byte3.toNat_lt
  apply map_injective_iff.mpr fun _ _ => UInt8.toNat_inj.mp
  rw [toNat_wordBytes, toNat_wordOfBytes]
  simp only [map_cons, map_nil, cons.injEq, and_true]
  omega

@[simp] theorem length_wordBytes (word : UInt32) : (wordBytes word).length = 4 := rfl

theorem wordBytes_readWord (memory : Nat → UInt8) (position : Nat) :
    wordBytes (readWord memory position) = readAt memory position 4 :=
  wordBytes_wordOfBytes _ _ _ _

theorem readWord_of_readAt {memory : Nat → UInt8}
    (bytes : readAt memory position 4 = wordBytes word) : readWord memory position = word := by
  have same := congrArg (map UInt8.toNat) ((wordBytes_readWord memory position).trans bytes)
  rw [toNat_wordBytes, toNat_wordBytes] at same
  simp only [cons.injEq, and_true] at same
  apply UInt32.toNat_inj.mp
  have boundLeft := (readWord memory position).toNat_lt
  have boundRight := word.toNat_lt
  omega

theorem flatMap_wordBytes_readWord (memory : Nat → UInt8) (position count : Nat) :
    ((range count).map fun index => readWord memory (position + 4 * index)).flatMap
      wordBytes = readAt memory position (4 * count) := by
  induction count with
  | zero => rfl
  | succ count induction =>
    rw [range_succ, map_append, flatMap_append, induction, map_singleton,
      flatMap_singleton, wordBytes_readWord, Nat.mul_succ, readAt_add]

end CentauriCarbon
