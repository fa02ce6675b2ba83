import Mathlib.Tactic.IntervalCases
import CentauriCarbon.Foundation.Vlq

/-! # Integers on the wire

The three encoders and three decoders of variable length quantities: `encode_int` and
`parse_int` of the micro-controller (`command.c`) and of the host's C helper
(`msgblock.c`), and `PT_base::encode` and `PT_base::parse` of the host (`msgproto.cpp`).
Every encoder writes the groups of `Vlq.bytes`; every decoder reads them back.
-/

namespace CentauriCarbon.Codec

open List

/-- `encode_int` of `command.c`, with its labels `f1` to `f4`. -/
def encodeInt (v : UInt32) : List UInt8 :=
  let sv := v.toInt32.toInt
  let f4 := [(v &&& 0x7f).toUInt8]
  let f3 := (((v >>> 7) &&& 0x7f) ||| 0x80).toUInt8 :: f4
  let f2 := (((v >>> 14) &&& 0x7f) ||| 0x80).toUInt8 :: f3
  let f1 := (((v >>> 21) &&& 0x7f) ||| 0x80).toUInt8 :: f2
  if sv < 3 * 2 ^ 5 ∧ sv ≥ -(2 ^ 5) then f4
  else if sv < 3 * 2 ^ 12 ∧ sv ≥ -(2 ^ 12) then f3
  else if sv < 3 * 2 ^ 19 ∧ sv ≥ -(2 ^ 19) then f2
  else if sv < 3 * 2 ^ 26 ∧ sv ≥ -(2 ^ 26) then f1
  else ((v >>> 28) ||| 0x80).toUInt8 :: f1

def parseFirst (c : UInt8) : UInt32 :=
  let v := (c &&& 0x7f).toUInt32
  if c &&& 0x60 = 0x60 then v ||| -0x20 else v

/-- The loop of `parse_int`; `none` when it would read past the buffer. -/
def parseIntLoop : UInt32 → List UInt8 → Option (UInt32 × List UInt8)
  | _, [] => none
  | v, c :: rest =>
    let v := (v <<< 7) ||| (c &&& 0x7f).toUInt32
    if c &&& 0x80 ≠ 0 then parseIntLoop v rest else some (v, rest)

def parseInt : List UInt8 → Option (UInt32 × List UInt8)
  | [] => none
  | c :: rest =>
    if c &&& 0x80 ≠ 0 then parseIntLoop (parseFirst c) rest
    else some (parseFirst c, rest)

/-- `encode_int` of `msgblock.c`, the same text as on the micro-controller. -/
def msgblockEncodeInt (v : UInt32) : List UInt8 := encodeInt v

def msgblockParseInt (buf : List UInt8) : Option (UInt32 × List UInt8) := parseInt buf

def continued (v : Int) (shift : Nat) : UInt8 := UInt8.ofNat (((v >>> shift) % 128).toNat ||| 0x80)

def ptEncode (v : Int) : List UInt8 :=
  (if v ≥ 0xc000000 ∨ v < -0x4000000 then [continued v 28] else []) ++
  (if v ≥ 0x180000 ∨ v < -0x80000 then [continued v 21] else []) ++
  (if v ≥ 0x3000 ∨ v < -0x1000 then [continued v 14] else []) ++
  (if v ≥ 0x60 ∨ v < -0x20 then [continued v 7] else []) ++
  [UInt8.ofNat (v % 128).toNat]

def ptParseLoop : UInt32 → Nat → List UInt8 → Option (UInt32 × Nat)
  | _, _, [] => none
  | v, pos, c :: rest =>
    let v := (v <<< 7) ||| (c &&& 0x7f).toUInt32
    if c &&& 0x80 ≠ 0 then ptParseLoop v (pos + 1) rest else some (v, pos + 1)

/-- `PT_base::parse`; the mask of an unsigned type changes nothing in 32 bits. -/
def ptParse (signedValue : Bool) (s : List UInt8) (pos : Nat) : Option (UInt32 × Nat) :=
  match s.drop pos with
  | [] => none
  | c :: rest =>
    let parsed :=
      if c &&& 0x80 ≠ 0 then ptParseLoop (parseFirst c) (pos + 1) rest
      else some (parseFirst c, pos + 1)
    parsed.map fun (v, pos) => (if signedValue then v else v &&& 0xffffffff, pos)

variable (v : UInt32) (c : UInt8) (signedValue : Bool)

theorem and_low_toNat : (c &&& 0x7f).toNat = c.toNat % 128 := Nat.and_two_pow_sub_one_eq_mod _ 7

theorem and_low_toNat32 : (v &&& 0x7f).toNat = v.toNat % 128 := Nat.and_two_pow_sub_one_eq_mod _ 7

theorem continuation_iff : c &&& 0x80 ≠ 0 ↔ 128 ≤ c.toNat := by
  have all : ∀ number < 256, (UInt8.ofNat number &&& 0x80 ≠ 0 ↔ 128 ≤ number) := by
    decide +kernel
  have this := all c.toNat c.toNat_lt
  rwa [UInt8.ofNat_toNat] at this

theorem or_continuation (small : number < 128) : number ||| 0x80 = number + 128 := by
  rw [Nat.or_comm, add_comm]
  exact (Nat.two_pow_add_eq_or_of_lt (i := 7) small 1).symm

theorem shiftIn_eq :
    (v <<< 7) ||| (c &&& 0x7f).toUInt32 = v * 128 + UInt32.ofNat (c.toNat % 128) := by
  apply UInt32.toNat_inj.mp
  have low : c.toNat % 128 < 2 ^ 7 := Nat.mod_lt _ (by decide)
  have shifted : v.toNat <<< 7 % 2 ^ 32 = 2 ^ 7 * (v.toNat % 2 ^ 25) := by
    omega
  rw [UInt32.toNat_or, UInt8.toNat_toUInt32, and_low_toNat, UInt32.toNat_add,
    UInt32.toNat_mul, UInt32.toNat_ofNat']
  change v.toNat <<< 7 % 2 ^ 32 ||| c.toNat % 128 = (v.toNat * 128 % 2 ^ 32 + _) % 2 ^ 32
  rw [shifted, ← Nat.two_pow_add_eq_or_of_lt low]
  omega

theorem parseFirst_eq : parseFirst c = UInt32.ofInt (Vlq.leading (c.toNat % 128 : Nat)) := by
  have all : ∀ number < 256, parseFirst (UInt8.ofNat number) =
      UInt32.ofInt (Vlq.leading (number % 128 : Nat)) := by
    decide +kernel
  have this := all c.toNat c.toNat_lt
  rwa [UInt8.ofNat_toNat] at this

theorem ofInt_of_nonneg (nonneg : 0 ≤ number) (small : number < 2 ^ 32) :
    UInt32.ofInt number = UInt32.ofNat number.toNat := by
  rw [UInt32.ofInt, Int.emod_eq_of_lt nonneg small]

/-! ## Reading groups back -/

section Groups

variable (value : Int) (index : Nat)

theorem group_toNat_lt : (Vlq.group value index).toNat < 128 := by
  have below : Vlq.group value index < 128 := Int.emod_lt_of_pos _ (by decide)
  omega

theorem lastByte_toNat :
    (UInt8.ofNat (Vlq.group value index).toNat).toNat = (Vlq.group value index).toNat := by
  have below := group_toNat_lt value index
  rw [UInt8.toNat_ofNat']
  omega

theorem continuedByte_toNat :
    (UInt8.ofNat ((Vlq.group value index).toNat + 128)).toNat =
      (Vlq.group value index).toNat + 128 := by
  have below := group_toNat_lt value index
  rw [UInt8.toNat_ofNat']
  omega

theorem shiftIn_group (acc : Int) {c : UInt8}
    (low : c.toNat % 128 = (Vlq.group value index).toNat) :
    (UInt32.ofInt acc <<< 7) ||| (c &&& 0x7f).toUInt32 =
      UInt32.ofInt (acc * 128 + Vlq.group value index) := by
  rw [shiftIn_eq, low, UInt32.ofInt_add, UInt32.ofInt_mul,
    ofInt_of_nonneg (Vlq.group_nonneg value index) (by omega)]
  rfl

end Groups

theorem parseIntLoop_bytes (acc value : Int) (last : Nat) (rest : List UInt8) :
    parseIntLoop (UInt32.ofInt acc) (Vlq.bytes value last ++ rest) =
      some (UInt32.ofInt (acc * 128 ^ (last + 1) + value % 128 ^ (last + 1)), rest) := by
  induction last generalizing acc with
  | zero =>
    have below := group_toNat_lt value 0
    have byte := lastByte_toNat value 0
    rw [Vlq.bytes, singleton_append, parseIntLoop, shiftIn_group value 0 acc (by omega),
      if_neg (by rw [continuation_iff]; omega)]
    simp [Vlq.group]
  | succ last induction =>
    have below := group_toNat_lt value (last + 1)
    have byte := continuedByte_toNat value (last + 1)
    rw [Vlq.bytes, cons_append, parseIntLoop, shiftIn_group value (last + 1) acc (by omega),
      if_pos (by rw [continuation_iff]; omega), induction, Vlq.emod_pow_succ value (last + 1)]
    ring_nf

/-- Whatever encoder wrote enough groups, the decoder reads the integer modulo
`2 ^ 32` and stops behind them. -/
theorem parseInt_bytes {value : Int} (fits : Vlq.Fits 32 value last) (rest : List UInt8) :
    parseInt (Vlq.bytes value last ++ rest) = some (UInt32.ofInt value, rest) := by
  rcases Vlq.join_eq fits with ⟨wraps, joined⟩
  have same : UInt32.ofInt (Vlq.join value last) = UInt32.ofInt value := by
    rw [joined, UInt32.ofInt_add, UInt32.ofInt_mul]
    change UInt32.ofInt value + UInt32.ofInt wraps * 0 = _
    rw [UInt32.mul_zero, UInt32.add_zero]
  have below := group_toNat_lt value last
  have nonneg := Vlq.group_nonneg value last
  rw [← same]
  cases last with
  | zero =>
    have byte := lastByte_toNat value 0
    have first : ((UInt8.ofNat (Vlq.group value 0).toNat).toNat % 128 : Nat) =
        (Vlq.group value 0) := by
      omega
    rw [Vlq.bytes, singleton_append, parseInt,
      if_neg (by rw [continuation_iff]; omega), parseFirst_eq, first]
    simp [Vlq.join]
  | succ last =>
    have byte := continuedByte_toNat value (last + 1)
    have first :
        ((UInt8.ofNat ((Vlq.group value (last + 1)).toNat + 128)).toNat % 128 : Nat) =
          (Vlq.group value (last + 1)) := by
      omega
    rw [Vlq.bytes, cons_append, parseInt,
      if_pos (by rw [continuation_iff]; omega), parseFirst_eq, first, parseIntLoop_bytes]
    rfl

/-! ## Writing groups -/

theorem lowByte_eq (x : UInt32) : (x &&& 0x7f).toUInt8 = UInt8.ofNat (x.toNat % 128) := by
  apply UInt8.toNat_inj.mp
  rw [UInt32.toNat_toUInt8, and_low_toNat32, UInt8.toNat_ofNat']

theorem continuedByte_eq {x : UInt32} (small : x.toNat < 128) :
    (x ||| 0x80).toUInt8 = UInt8.ofNat (x.toNat + 128) := by
  apply UInt8.toNat_inj.mp
  rw [UInt32.toNat_toUInt8, UInt32.toNat_or, UInt8.toNat_ofNat']
  change (x.toNat ||| 0x80) % 2 ^ 8 = _
  rw [or_continuation small]

theorem maskedByte_eq (x : UInt32) :
    ((x &&& 0x7f) ||| 0x80).toUInt8 = UInt8.ofNat (x.toNat % 128 + 128) := by
  have small : (x &&& 0x7f).toNat < 128 := by
    rw [and_low_toNat32]
    exact Nat.mod_lt _ (by decide)
  rw [continuedByte_eq small, and_low_toNat32]

/-- The five bytes that `encode_int` can write are the groups of the unsigned value. -/
theorem bytes_toNat : Vlq.bytes v.toNat 4 =
      [((v >>> 28) ||| 0x80).toUInt8, (((v >>> 21) &&& 0x7f) ||| 0x80).toUInt8,
        (((v >>> 14) &&& 0x7f) ||| 0x80).toUInt8, (((v >>> 7) &&& 0x7f) ||| 0x80).toUInt8,
        (v &&& 0x7f).toUInt8] := by
  have bound := v.toNat_lt
  have top : (v >>> 28).toNat < 128 := by
    change v.toNat >>> 28 < 128
    omega
  have group_eq (index : Nat) : (Vlq.group v.toNat index).toNat = v.toNat / 128 ^ index % 128 := by
    norm_cast
  rw [continuedByte_eq top, maskedByte_eq, maskedByte_eq, maskedByte_eq, lowByte_eq]
  simp only [Vlq.bytes, group_eq]
  change _ = [UInt8.ofNat (v.toNat >>> 28 + 128), UInt8.ofNat (v.toNat >>> 21 % 128 + 128),
    UInt8.ofNat (v.toNat >>> 14 % 128 + 128), UInt8.ofNat (v.toNat >>> 7 % 128 + 128), _]
  simp only [Nat.shiftRight_eq_div_pow]
  rw [show v.toNat / 128 ^ 4 % 128 = v.toNat / 2 ^ 28 by omega]
  norm_num

theorem toInt32_toInt : v.toInt32.toInt = v.toNat ∨ v.toInt32.toInt = v.toNat - 2 ^ 32 := by
  have cases := BitVec.toInt_eq_toNat_cond v.toBitVec
  split at cases
  · exact .inl cases
  · exact .inr cases

theorem ofInt_toNat : UInt32.ofInt v.toNat = v := by
  have bound := v.toNat_lt
  rw [ofInt_of_nonneg (Int.natCast_nonneg _) (by omega)]
  exact UInt32.ofNat_toNat

theorem ofInt_toInt32 : UInt32.ofInt v.toInt32.toInt = v := by
  rcases toInt32_toInt v with same | wrapped
  · rw [same, ofInt_toNat]
  · rw [wrapped, Int.sub_eq_add_neg, UInt32.ofInt_add, ofInt_toNat]
    change v + 0 = v
    rw [UInt32.add_zero]

theorem bytes_toInt32 {last : Nat} (short : last ≤ 3) :
    Vlq.bytes v.toInt32.toInt last = Vlq.bytes v.toNat last := by
  apply Vlq.bytes_congr
  intro index below
  have small : index ≤ 3 := le_trans below short
  rcases toInt32_toInt v with same | wrapped
  · rw [same]
  · rw [wrapped, Vlq.group, Vlq.group]
    interval_cases index <;> omega

/-- `encode_int` writes as many groups as its thresholds say, and they are enough. -/
theorem encodeInt_eq_bytes :
    ∃ value last, encodeInt v = Vlq.bytes value last ∧ Vlq.Fits 32 value last ∧
      UInt32.ofInt value = v := by
  have f0 := bytes_toNat v
  have f1 := (cons.inj f0).2
  have f2 := (cons.inj f1).2
  have f3 := (cons.inj f2).2
  have f4 := (cons.inj f3).2
  unfold encodeInt
  dsimp only
  split_ifs with one two three four
  · exact ⟨_, 0, ((bytes_toInt32 v (by decide)).trans f4).symm,
      .inl ⟨by omega, by omega⟩, ofInt_toInt32 v⟩
  · exact ⟨_, 1, ((bytes_toInt32 v (by decide)).trans f3).symm,
      .inl ⟨by omega, by omega⟩, ofInt_toInt32 v⟩
  · exact ⟨_, 2, ((bytes_toInt32 v (by decide)).trans f2).symm,
      .inl ⟨by omega, by omega⟩, ofInt_toInt32 v⟩
  · exact ⟨_, 3, ((bytes_toInt32 v (by decide)).trans f1).symm,
      .inl ⟨by omega, by omega⟩, ofInt_toInt32 v⟩
  · exact ⟨_, 4, f0.symm, .inr (by decide), ofInt_toNat v⟩

theorem continued_eq (v : Int) (index : Nat) :
    continued v (7 * index) = UInt8.ofNat ((Vlq.group v index).toNat + 128) := by
  have weight : (2 : Int) ^ (7 * index) = 128 ^ index := by rw [pow_mul]; rfl
  have same : v >>> (7 * index) % 128 = Vlq.group v index := by
    rw [Int.shiftRight_eq_div_pow, Vlq.group, ← weight]
    norm_cast
  rw [continued, same, or_continuation (group_toNat_lt v index)]

theorem ptEncode_eq_bytes (v : Int) :
    ∃ last, ptEncode v = Vlq.bytes v last ∧ Vlq.Fits 32 v last := by
  have f4 : continued v 28 = _ := continued_eq v 4
  have f3 : continued v 21 = _ := continued_eq v 3
  have f2 : continued v 14 = _ := continued_eq v 2
  have f1 : continued v 7 = _ := continued_eq v 1
  have f0 : v % 128 = Vlq.group v 0 := by rw [Vlq.group, pow_zero, Int.ediv_one]
  rw [ptEncode, f4, f3, f2, f1, f0]
  -- Each threshold implies the ones below it, so the tests make a ladder.
  by_cases four : v ≥ 0xc000000 ∨ v < -0x4000000
  · rw [if_pos four, if_pos (by omega), if_pos (by omega), if_pos (by omega)]
    exact ⟨4, rfl, .inr (by decide)⟩
  rw [if_neg four]
  by_cases three : v ≥ 0x180000 ∨ v < -0x80000
  · rw [if_pos three, if_pos (by omega), if_pos (by omega)]
    exact ⟨3, rfl, .inl ⟨by omega, by omega⟩⟩
  rw [if_neg three]
  by_cases two : v ≥ 0x3000 ∨ v < -0x1000
  · rw [if_pos two, if_pos (by omega)]
    exact ⟨2, rfl, .inl ⟨by omega, by omega⟩⟩
  rw [if_neg two]
  by_cases one : v ≥ 0x60 ∨ v < -0x20
  · rw [if_pos one]
    exact ⟨1, rfl, .inl ⟨by omega, by omega⟩⟩
  rw [if_neg one]
  exact ⟨0, rfl, .inl ⟨by omega, by omega⟩⟩

theorem parseInt_encodeInt (rest : List UInt8) :
    parseInt (encodeInt v ++ rest) = some (v, rest) := by
  rcases encodeInt_eq_bytes v with ⟨value, last, written, fits, same⟩
  rw [written, parseInt_bytes fits, same]

theorem parseInt_ptEncode (v : Int) (rest : List UInt8) :
    parseInt (ptEncode v ++ rest) = some (UInt32.ofInt v, rest) := by
  rcases ptEncode_eq_bytes v with ⟨last, written, fits⟩
  rw [written, parseInt_bytes fits]

theorem ptParseLoop_eq (pos : Nat) (buf : List UInt8) : ptParseLoop v pos buf =
      (parseIntLoop v buf).map fun (v, rest) => (v, pos + buf.length - rest.length) := by
  induction buf generalizing v pos with
  | nil => rfl
  | cons c rest induction =>
    rw [ptParseLoop, parseIntLoop]
    split
    · rw [induction]
      rw [length_cons, add_assoc, add_comm 1]
    · simp only [Option.map_some, length_cons]
      congr 2
      omega

theorem and_mask : v &&& 0xffffffff = v := by
  apply UInt32.toNat_inj.mp
  change v.toNat &&& 0xffffffff = v.toNat
  rw [Nat.and_two_pow_sub_one_eq_mod _ 32, Nat.mod_eq_of_lt v.toNat_lt]

theorem ptParse_eq (s : List UInt8) (pos : Nat) : ptParse signedValue s pos =
      (parseInt (s.drop pos)).map fun (v, rest) =>
        (v, pos + (s.drop pos).length - rest.length) := by
  unfold ptParse
  cases s.drop pos with
  | nil => rfl
  | cons c tail =>
    simp only [parseInt, and_mask, ite_self, Option.map_id']
    split
    · rw [ptParseLoop_eq, length_cons]
      rw [add_assoc, add_comm 1]
    · simp only [Option.map_some, length_cons]
      congr 2
      omega

theorem ptParse_encodeInt {s rest : List UInt8} {v : UInt32}
    (at_pos : s.drop pos = encodeInt v ++ rest) :
    ptParse signedValue s pos = some (v, pos + (encodeInt v).length) := by
  rw [ptParse_eq, at_pos, parseInt_encodeInt, length_append, ← add_assoc]
  dsimp only [Option.map_some]
  rw [Nat.add_sub_cancel]

end CentauriCarbon.Codec
