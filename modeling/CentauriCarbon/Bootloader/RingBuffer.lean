import CentauriCarbon.Foundation.Memory

/-! # The ring buffer

`ringbuffer.h`: two counters run freely and wrap at 32 bits, the position in the buffer is their
low bits. As long as there is room, the buffer is a first-in first-out queue.
-/

namespace CentauriCarbon.Bootloader

structure RingBuffer where
  buf : Nat → UInt8
  inCount : UInt32
  outCount : UInt32
  size : UInt32
  powerOfTwo : ∃ bits < 16, size.toNat = 2 ^ bits
  used_le : inCount - outCount ≤ size

namespace RingBuffer

/-- `DEFINE_RINGBUFFER(com_rb, 1024)`. -/
def comRb : RingBuffer where
  buf _ := 0
  inCount := 0
  outCount := 0
  size := 1024
  powerOfTwo := ⟨10, Nat.lt_of_sub_eq_succ rfl, rfl⟩
  used_le := UInt32.le_iff_toNat_le.mpr (Nat.zero_le _)

def ringbufferMin (left right : UInt32) : UInt32 := if left > right then right else left

theorem ringbufferMin_le_right (left right : UInt32) : ringbufferMin left right ≤ right := by
  unfold ringbufferMin
  split
  · exact UInt32.le_refl _
  next notAbove => exact UInt32.not_lt.mp notAbove

theorem toNat_ringbufferMin (left right : UInt32) :
    (ringbufferMin left right).toNat = min left.toNat right.toNat := by
  unfold ringbufferMin
  split
  next above =>
    have above := UInt32.lt_iff_toNat_lt.mp above
    omega
  next notAbove =>
    have notAbove := UInt32.le_iff_toNat_le.mp (UInt32.not_lt.mp notAbove)
    omega

variable (rb : RingBuffer)

def ringbufferAvailableGetLength : UInt32 := rb.inCount - rb.outCount

def used : Nat := rb.ringbufferAvailableGetLength.toNat

theorem used_le_size : rb.used ≤ rb.size.toNat :=
  UInt32.le_iff_toNat_le.mp rb.used_le

theorem put_used_le (len : UInt32) :
    rb.inCount + ringbufferMin len (rb.size - rb.inCount + rb.outCount) - rb.outCount ≤
      rb.size := by
  have bound := UInt32.le_iff_toNat_le.mp
    (ringbufferMin_le_right len (rb.size - rb.inCount + rb.outCount))
  have within := UInt32.le_iff_toNat_le.mp rb.used_le
  have insideIn := rb.inCount.toNat_lt
  have insideOut := rb.outCount.toNat_lt
  rw [UInt32.le_iff_toNat_le, UInt32.toNat_sub, UInt32.toNat_add]
  rw [UInt32.toNat_sub] at within
  rw [UInt32.toNat_add, UInt32.toNat_sub] at bound
  omega

theorem get_used_le (len : UInt32) :
    rb.inCount - (rb.outCount + ringbufferMin len (rb.inCount - rb.outCount)) ≤ rb.size := by
  have bound := UInt32.le_iff_toNat_le.mp (ringbufferMin_le_right len (rb.inCount - rb.outCount))
  have within := UInt32.le_iff_toNat_le.mp rb.used_le
  have insideOut := rb.outCount.toNat_lt
  rw [UInt32.le_iff_toNat_le, UInt32.toNat_sub, UInt32.toNat_add]
  rw [UInt32.toNat_sub] at within bound
  omega

def ringbufferPut (data : List UInt8) (len : UInt32) : UInt32 × RingBuffer :=
  let count := ringbufferMin len (rb.size - rb.inCount + rb.outCount)
  let position := rb.inCount &&& (rb.size - 1)
  let l := (ringbufferMin count (rb.size - position)).toUInt16
  (count,
    { rb with
      buf := writeAt (writeAt rb.buf position.toNat (data.take l.toNat)) 0
        ((data.drop l.toNat).take (count - l.toUInt32).toNat)
      inCount := rb.inCount + count
      used_le := rb.put_used_le len })

def ringbufferGet (len : UInt32) : List UInt8 × RingBuffer :=
  let count := ringbufferMin len (rb.inCount - rb.outCount)
  let position := rb.outCount &&& (rb.size - 1)
  let l := (ringbufferMin count (rb.size - position)).toUInt16
  (readAt rb.buf position.toNat l.toNat ++ readAt rb.buf 0 (count - l.toUInt32).toNat,
    { rb with outCount := rb.outCount + count, used_le := rb.get_used_le len })

section

variable (rb : RingBuffer)

def contents (rb : RingBuffer) : List UInt8 := window rb.buf rb.size.toNat rb.outCount.toNat rb.used

@[simp] theorem length_contents : rb.contents.length = rb.used := length_window _ _ _ _

theorem toNat_position (count : UInt32) :
    (count &&& (rb.size - 1)).toNat = count.toNat % rb.size.toNat := by
  rcases rb.powerOfTwo with ⟨bits, small, isPower⟩
  have positive : 0 < 2 ^ bits := Nat.two_pow_pos bits
  have mask : (rb.size - 1).toNat = 2 ^ bits - 1 := by
    have one : (1 : UInt32).toNat = 1 := rfl
    have bound := rb.size.toNat_lt
    rw [UInt32.toNat_sub, one, isPower]
    omega
  rw [UInt32.toNat_and, mask, isPower, Nat.and_two_pow_sub_one_eq_mod]

theorem size_le : 0 < rb.size.toNat ∧ rb.size.toNat ≤ 2 ^ 15 := by
  rcases rb.powerOfTwo with ⟨bits, small, isPower⟩
  rw [isPower]
  exact ⟨Nat.two_pow_pos bits, Nat.pow_le_pow_right (by omega) (by omega)⟩

theorem toNat_firstPiece (count start : UInt32) (fits : count.toNat ≤ rb.size.toNat) :
    (ringbufferMin count (rb.size - (start &&& (rb.size - 1)))).toUInt16.toNat =
      min count.toNat (rb.size.toNat - start.toNat % rb.size.toNat) := by
  have bounds := rb.size_le
  have position := rb.toNat_position start
  have below : start.toNat % rb.size.toNat < rb.size.toNat := Nat.mod_lt _ bounds.1
  have rest : (rb.size - (start &&& (rb.size - 1))).toNat =
      rb.size.toNat - start.toNat % rb.size.toNat := by
    rw [UInt32.toNat_sub, position]
    omega
  rw [UInt32.toNat_toUInt16, toNat_ringbufferMin, rest]
  omega

theorem toNat_secondPiece (count start : UInt32) (fits : count.toNat ≤ rb.size.toNat) :
    (count - (ringbufferMin count
        (rb.size - (start &&& (rb.size - 1)))).toUInt16.toUInt32).toNat =
      count.toNat - min count.toNat (rb.size.toNat - start.toNat % rb.size.toNat) := by
  have inside := count.toNat_lt
  rw [UInt32.toNat_sub, UInt16.toNat_toUInt32, rb.toNat_firstPiece count start fits]
  omega

theorem size_dvd : rb.size.toNat ∣ 2 ^ 32 := by
  rcases rb.powerOfTwo with ⟨bits, small, isPower⟩
  rw [isPower]
  exact Nat.pow_dvd_pow 2 (by omega)

theorem toNat_add_mod_size (left right : UInt32) :
    (left + right).toNat % rb.size.toNat = (left.toNat + right.toNat) % rb.size.toNat := by
  rw [UInt32.toNat_add, Nat.mod_mod_of_dvd _ rb.size_dvd]

theorem inCount_mod_size :
    rb.inCount.toNat % rb.size.toNat = (rb.outCount.toNat + rb.used) % rb.size.toNat := by
  have joined : rb.inCount = rb.outCount + (rb.inCount - rb.outCount) := by
    rw [UInt32.add_comm, UInt32.sub_add_cancel]
  conv_lhs => rw [joined]
  exact rb.toNat_add_mod_size _ _

end

section Put

variable {rb : RingBuffer} {data : List UInt8} {len : UInt32}

theorem toNat_putCount (rb : RingBuffer) (len : UInt32) :
    (ringbufferMin len (rb.size - rb.inCount + rb.outCount)).toNat =
      min len.toNat (rb.size.toNat - rb.used) := by
  have within := rb.used_le_size
  have insideIn := rb.inCount.toNat_lt
  have insideOut := rb.outCount.toNat_lt
  have insideSize := rb.size.toNat_lt
  rw [toNat_ringbufferMin, UInt32.toNat_add, UInt32.toNat_sub]
  rw [used, ringbufferAvailableGetLength, UInt32.toNat_sub] at within ⊢
  omega

theorem putCount_eq (fits : rb.used + len.toNat ≤ rb.size.toNat) :
    ringbufferMin len (rb.size - rb.inCount + rb.outCount) = len := by
  apply UInt32.toNat_inj.mp
  rw [toNat_putCount]
  omega

theorem used_ringbufferPut (data : List UInt8) (fits : rb.used + len.toNat ≤ rb.size.toNat) :
    (rb.ringbufferPut data len).2.used = rb.used + len.toNat := by
  have insideSize := rb.size_le
  simp only [used, ringbufferAvailableGetLength, ringbufferPut, putCount_eq fits]
  rw [used, ringbufferAvailableGetLength] at fits
  rw [UInt32.toNat_sub, UInt32.toNat_add]
  rw [UInt32.toNat_sub] at fits ⊢
  omega

theorem contents_ringbufferPut (isLength : data.length = len.toNat)
    (fits : rb.used + len.toNat ≤ rb.size.toNat) :
    (rb.ringbufferPut data len).2.contents = rb.contents ++ data := by
  have small : len.toNat ≤ rb.size.toNat := by omega
  have first := rb.toNat_firstPiece len rb.inCount small
  have position := rb.toNat_position rb.inCount
  have second := rb.toNat_secondPiece len rb.inCount small
  have rest (first : Nat) : (data.drop first).take (len.toNat - first) = data.drop first := by
    apply List.take_of_length_le
    rw [List.length_drop, isLength]
  have written : (rb.ringbufferPut data len).2.buf =
      writeCircular rb.buf rb.size.toNat (rb.outCount.toNat + rb.used) data := by
    simp only [ringbufferPut, putCount_eq fits, first, second, position, rest]
    rw [writeCircular, isLength, inCount_mod_size]
  have usedAfter := used_ringbufferPut data fits
  rw [contents, usedAfter, written]
  rw [← isLength]
  exact window_writeCircular rb.buf (by omega)

/-- What does not fit is not put. -/
theorem contents_ringbufferPut_take (isLength : data.length = len.toNat) :
    (rb.ringbufferPut data len).2.contents =
      rb.contents ++ data.take (rb.size.toNat - rb.used) := by
  have within := rb.used_le_size
  have count := rb.toNat_putCount len
  generalize accepted : ringbufferMin len (rb.size - rb.inCount + rb.outCount) = taken at count
  have fits : rb.used + taken.toNat ≤ rb.size.toNat := by omega
  have first := rb.toNat_firstPiece taken rb.inCount (by omega)
  have second := rb.toNat_secondPiece taken rb.inCount (by omega)
  have same : (rb.ringbufferPut data len).2 =
      (rb.ringbufferPut (data.take taken.toNat) taken).2 := by
    simp only [ringbufferPut, accepted, putCount_eq fits, first, second, List.take_take,
      List.drop_take, Nat.min_self, Nat.min_eq_left (Nat.min_le_left _ _)]
  rw [same, contents_ringbufferPut (by rw [List.length_take]; omega) fits, count, ← isLength,
    Nat.min_comm, ← List.take_eq_take_min]

end Put

section Get

variable (rb : RingBuffer) (len : UInt32)

theorem ringbufferGet_count :
    (ringbufferMin len (rb.inCount - rb.outCount)).toNat = min len.toNat rb.used :=
  toNat_ringbufferMin _ _

theorem ringbufferGet_fst : (rb.ringbufferGet len).1 = rb.contents.take len.toNat := by
  have small : (ringbufferMin len (rb.inCount - rb.outCount)).toNat ≤ rb.size.toNat := by
    have within := rb.used_le_size
    rw [ringbufferGet_count]
    omega
  have first := rb.toNat_firstPiece _ rb.outCount small
  have position := rb.toNat_position rb.outCount
  have second := rb.toNat_secondPiece _ rb.outCount small
  have taken : rb.contents.take len.toNat =
      window rb.buf rb.size.toNat rb.outCount.toNat (min len.toNat rb.used) := by
    rw [contents, window, ← List.map_take, List.take_range]
    rfl
  rw [taken, window_eq rb.buf (ringbufferGet_count rb len ▸ small)]
  simp only [ringbufferGet, first, second, position, ringbufferGet_count]

theorem used_ringbufferGet : (rb.ringbufferGet len).2.used = rb.used - len.toNat := by
  have count := rb.ringbufferGet_count len
  have insideOut := rb.outCount.toNat_lt
  simp only [used, ringbufferAvailableGetLength, ringbufferGet] at count ⊢
  rw [UInt32.toNat_sub, UInt32.toNat_add, count]
  rw [UInt32.toNat_sub]
  omega

theorem contents_ringbufferGet :
    (rb.ringbufferGet len).2.contents = rb.contents.drop len.toNat := by
  have count := rb.ringbufferGet_count len
  rw [contents, contents, used_ringbufferGet]
  rcases Nat.le_total len.toNat rb.used with some | all
  · have moved : (rb.ringbufferGet len).2.outCount.toNat % rb.size.toNat =
        (rb.outCount.toNat + len.toNat) % rb.size.toNat := by
      rw [ringbufferGet, toNat_add_mod_size, count, Nat.min_eq_left some]
    have joined := window_add rb.buf rb.size.toNat rb.outCount.toNat len.toNat (rb.used - len.toNat)
    rw [Nat.add_sub_cancel' some] at joined
    rw [joined, List.drop_left' (length_window _ _ _ _)]
    apply List.map_congr_left
    intro index _
    change rb.buf ((_ + index) % rb.size.toNat) = _
    rw [← Nat.mod_add_mod, moved, Nat.mod_add_mod]
  · rw [Nat.sub_eq_zero_of_le all, List.drop_of_length_le]
    · rfl
    · rw [length_window]
      exact all

end Get

/-! ## A bounded queue -/

def ringbufferAvailablePutLength : UInt32 := rb.size - rb.ringbufferAvailableGetLength

/-- Both copies of `count` bytes at an index stay in the buffer. -/
def copiesInside (index count : UInt32) : Bool :=
  let position := index &&& (rb.size - 1)
  let l := (ringbufferMin count (rb.size - position)).toUInt16
  position.toNat + l.toNat ≤ rb.size.toNat ∧ (count - l.toUInt32).toNat ≤ rb.size.toNat

inductive Call where
  | put (buf : Nat → UInt8) (len : UInt32)
  | get (len : UInt32)
  | availableGetLength
  | availablePutLength

/-- The number a call returns, the bytes it copies out and the buffer it leaves; `none` if a copy
leaves the buffer. -/
def call : Call → Option ((Nat × List UInt8) × RingBuffer)
  | .put buf len =>
    let count := ringbufferMin len (rb.size - rb.inCount + rb.outCount)
    if rb.copiesInside rb.inCount count then
      let (count, rb) := rb.ringbufferPut (readAt buf 0 len.toNat) len
      some ((count.toNat, []), rb)
    else none
  | .get len =>
    let count := ringbufferMin len (rb.inCount - rb.outCount)
    if rb.copiesInside rb.outCount count then
      let (bytes, rb) := rb.ringbufferGet len
      some ((count.toNat, bytes), rb)
    else none
  | .availableGetLength => some ((rb.ringbufferAvailableGetLength.toNat, []), rb)
  | .availablePutLength => some ((rb.ringbufferAvailablePutLength.toNat, []), rb)

def replies (rb : RingBuffer) : List Call → Option (List (Nat × List UInt8))
  | [] => some []
  | call :: calls => do
    let (reply, rb) ← rb.call call
    return reply :: (← rb.replies calls)

/-- A queue of at most `size` bytes. -/
def queueCall (size : Nat) (queue : List UInt8) : Call → (Nat × List UInt8) × List UInt8
  | .put buf len =>
    let accepted := (readAt buf 0 len.toNat).take (size - queue.length)
    ((accepted.length, []), queue ++ accepted)
  | .get len =>
    (((queue.take len.toNat).length, queue.take len.toNat), queue.drop len.toNat)
  | .availableGetLength => ((queue.length, []), queue)
  | .availablePutLength => ((size - queue.length, []), queue)

def queueReplies (size : Nat) (queue : List UInt8) : List Call → List (Nat × List UInt8)
  | [] => []
  | call :: calls =>
    (queueCall size queue call).1 :: queueReplies size (queueCall size queue call).2 calls

variable {rb}

theorem copiesInside_of_le (index : UInt32) (fits : count.toNat ≤ rb.size.toNat) :
    rb.copiesInside index count := by
  have below := Nat.mod_lt index.toNat rb.size_le.1
  rw [copiesInside]
  apply decide_eq_true
  rw [rb.toNat_secondPiece count index fits, rb.toNat_firstPiece count index fits,
    rb.toNat_position]
  omega

theorem call_eq (call : Call) : ∃ next, rb.call call =
      some ((queueCall rb.size.toNat rb.contents call).1, next) ∧ next.size = rb.size ∧
        next.contents = (queueCall rb.size.toNat rb.contents call).2 := by
  have within := rb.used_le_size
  cases call with
  | put buf len =>
    have count := rb.toNat_putCount len
    refine ⟨(rb.ringbufferPut (readAt buf 0 len.toNat) len).2,
      (if_pos (copiesInside_of_le _ (by omega))).trans ?_, rfl, ?_⟩
    · simp [queueCall, ← count, ringbufferPut, Nat.min_comm]
    · rw [contents_ringbufferPut_take (length_readAt _ _ _), queueCall, length_contents]
  | get len =>
    have count := rb.ringbufferGet_count len
    refine ⟨(rb.ringbufferGet len).2, (if_pos (copiesInside_of_le _ (by omega))).trans ?_, rfl,
      rb.contents_ringbufferGet len⟩
    rw [queueCall, List.length_take, length_contents, ← count, ← ringbufferGet_fst]
    rfl
  | availableGetLength => exact ⟨rb, by simp [RingBuffer.call, queueCall, used], rfl, rfl⟩
  | availablePutLength =>
    refine ⟨rb, ?_, rfl, rfl⟩
    have room := UInt32.toNat_sub_of_le _ _ rb.used_le
    rw [queueCall, length_contents, used, ringbufferAvailableGetLength, ← room]
    rfl

theorem replies_eq (calls : List Call) :
    rb.replies calls = some (queueReplies rb.size.toNat rb.contents calls) := by
  induction calls generalizing rb with
  | nil => rfl
  | cons call calls induction =>
    rcases rb.call_eq call with ⟨next, called, size, contents⟩
    simp [replies, called, induction, size, contents, queueReplies]

/-- Wherever the two counters start, calls are answered as by a queue, and none leaves the
buffer. -/
theorem ringbuffer_is_queue (rb : RingBuffer) (empty : rb.inCount = rb.outCount)
    (calls : List Call) : rb.replies calls = some (queueReplies rb.size.toNat [] calls) := by
  have nothing : rb.contents = [] := by
    rw [contents, used, ringbufferAvailableGetLength, empty, UInt32.sub_self]
    rfl
  rw [replies_eq, nothing]

/-- The counters wrap, and the bytes are split at the end of the buffer. -/
theorem ringbuffer_is_queue_wrapped :
    replies { comRb with inCount := 0xFFFFFFFE, outCount := 0xFFFFFFFE, used_le := by decide }
        [.put (fun index => .ofNat (index + 1)) 5, .get 3, .get 5, .availablePutLength] =
      some [(5, []), (3, [1, 2, 3]), (2, [4, 5]), (1024, [])] :=
  ringbuffer_is_queue _ rfl _

end RingBuffer

end CentauriCarbon.Bootloader
