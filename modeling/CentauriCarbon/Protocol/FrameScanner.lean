import Mathlib.Data.List.GetD
import Mathlib.Order.Nat
import CentauriCarbon.Foundation.StreamScanner
import CentauriCarbon.Protocol.Message

/-! # What framing means

The purpose of both framing loops, stated once and independently of either: at a
stream position a frame is complete and valid, certainly not valid, or not yet
decided. After an invalid frame the receiver hunts, byte by byte, for the next
SYNC. Host and micro-controller are shown elsewhere to refine `frameScanner`.
-/

namespace CentauriCarbon.Protocol

open List

inductive FrameVerdict where
  | incomplete
  | valid (length : Nat)
  | invalid
  deriving DecidableEq

variable (buf : List UInt8)

def frameLength : Nat := (buf.getD messagePosLen 0).toNat

def HeaderPlausible : Prop :=
  messageMin ≤ frameLength buf ∧ frameLength buf ≤ messageMax ∧
    buf.getD messagePosSeq 0 &&& ~~~messageSeqMask = messageDest

instance (buf : List UInt8) : Decidable (HeaderPlausible buf) :=
  inferInstanceAs (Decidable (_ ∧ _ ∧ _))

def TrailerMatches : Prop :=
  buf.getD (frameLength buf - messageTrailerSync) 0 = messageSync ∧
    msgblockCrc16Ccitt (buf.take (frameLength buf - messageTrailerSize)) =
      crcOfBytes (buf.getD (frameLength buf - messageTrailerCrc) 0)
        (buf.getD (frameLength buf - messageTrailerCrc + 1) 0)

instance (buf : List UInt8) : Decidable (TrailerMatches buf) := inferInstanceAs (Decidable (_ ∧ _))

def frameAt : FrameVerdict :=
  if buf.length < messageMin then .incomplete
  else if ¬ HeaderPlausible buf then .invalid
  else if buf.length < frameLength buf then .incomplete
  else if TrailerMatches buf then .valid (frameLength buf)
  else .invalid

variable {buf : List UInt8}

theorem frameAt_of_short (short : buf.length < messageMin) : frameAt buf = .incomplete := by
  simp [frameAt, short]

/-- Both receivers make the same tests in the same order, and together they take the
decision of `frameAt`. -/
theorem frameTests_eq {Result : Type} (incomplete invalid : Result) (valid : Nat → Result)
    (enough : ¬ buf.length < messageMin) :
    (if frameLength buf < messageMin ∨ frameLength buf > messageMax then invalid
      else if buf.getD messagePosSeq 0 &&& ~~~messageSeqMask ≠ messageDest then invalid
      else if buf.length < frameLength buf then incomplete
      else if buf.getD (frameLength buf - messageTrailerSync) 0 ≠ messageSync then invalid
      else if msgblockCrc16Ccitt (buf.take (frameLength buf - messageTrailerSize)) ≠
          crcOfBytes (buf.getD (frameLength buf - messageTrailerCrc) 0)
            (buf.getD (frameLength buf - messageTrailerCrc + 1) 0) then invalid
      else valid (frameLength buf)) =
      match frameAt buf with
      | .incomplete => incomplete
      | .valid length => valid length
      | .invalid => invalid := by
  rw [frameAt, if_neg enough]
  by_cases credible : HeaderPlausible buf
  · have inRange : ¬ (frameLength buf < messageMin ∨ frameLength buf > messageMax) := by
      have low := credible.1
      have high := credible.2.1
      omega
    rw [if_neg inRange, if_neg (not_not.mpr credible.2.2), if_neg (not_not.mpr credible)]
    by_cases cut : buf.length < frameLength buf
    · rw [if_pos cut, if_pos cut]
    rw [if_neg cut, if_neg cut]
    by_cases sync : buf.getD (frameLength buf - messageTrailerSync) 0 = messageSync
    · rw [if_neg (not_not.mpr sync)]
      by_cases trailer : TrailerMatches buf
      · rw [if_pos trailer, if_neg (not_not.mpr trailer.2)]
      · rw [if_neg trailer, if_pos fun crc => trailer ⟨sync, crc⟩]
    · rw [if_pos sync, if_neg fun trailer => sync trailer.1]
  · rw [if_pos credible]
    by_cases inRange : frameLength buf < messageMin ∨ frameLength buf > messageMax
    · rw [if_pos inRange]
    · rw [if_neg inRange]
      refine if_pos fun dest => credible ⟨?_, ?_, dest⟩ <;> omega

theorem frameAt_eq_valid_iff {length : Nat} : frameAt buf = .valid length ↔
      HeaderPlausible buf ∧ TrailerMatches buf ∧ length = frameLength buf ∧
        length ≤ buf.length := by
  constructor
  · intro verdict
    unfold frameAt at verdict
    split_ifs at verdict with short credible cut trailer
    · injection verdict with equal
      subst equal
      exact ⟨credible, trailer, rfl, by omega⟩
  · rintro ⟨credible, trailer, rfl, fits⟩
    have minimal := credible.1
    simp [frameAt, credible, trailer, show ¬ buf.length < messageMin by omega,
      show ¬ buf.length < frameLength buf by omega]

theorem frameLength_addFrame (seq : UInt8) (small : payload.length ≤ messagePayloadMax) :
    frameLength (addFrame seq payload) = payload.length + messageMin := by
  have bound : payload.length ≤ 59 := small
  change (UInt8.ofNat (messageHeaderSize + payload.length + messageTrailerSize)).toNat = _
  rw [UInt8.toNat_ofNat']
  unfold messageHeaderSize messageTrailerSize messageMin
  omega

theorem frameAt_addFrame (small : payload.length ≤ messagePayloadMax)
    (dest : seq &&& ~~~messageSeqMask = messageDest) :
    frameAt (addFrame seq payload) = .valid (addFrame seq payload).length := by
  have bound : payload.length ≤ 59 := small
  have length := frameLength_addFrame seq small
  rw [frameAt_eq_valid_iff, TrailerMatches, HeaderPlausible, length, length_addFrame]
  refine ⟨⟨Nat.le_add_left _ _, ?_, dest⟩, ⟨?_, ?_⟩, rfl, le_rfl⟩
  · unfold messageMin messageMax
    omega
  · simp [addFrame, crcBytes, messageMin, messageTrailerSync]
  have front : (addFrame seq payload).take (payload.length + 2) =
      UInt8.ofNat (messageHeaderSize + payload.length + messageTrailerSize) :: seq :: payload := by
    simp [addFrame]
  change msgblockCrc16Ccitt ((addFrame seq payload).take (payload.length + 2)) =
    crcOfBytes ((addFrame seq payload).getD (payload.length + 2) 0)
      ((addFrame seq payload).getD (payload.length + 3) 0)
  simp [addFrame, crcBytes, crcOfBytes_crcBytes]

/-! ## Decisions are stable -/

section Append

variable {buf : List UInt8} (more : List UInt8)

private theorem getD_append_left (within : index < buf.length) :
    (buf ++ more).getD index 0 = buf.getD index 0 :=
  getD_append buf more 0 index within

theorem frameLength_append (enough : messageMin ≤ buf.length) :
    frameLength (buf ++ more) = frameLength buf := by
  unfold frameLength
  rw [getD_append_left more (by unfold messageMin messagePosLen at *; omega)]

theorem headerPlausible_append (enough : messageMin ≤ buf.length) :
    HeaderPlausible (buf ++ more) ↔ HeaderPlausible buf := by
  unfold HeaderPlausible
  rw [frameLength_append more enough,
    getD_append_left more (by unfold messageMin messagePosSeq at *; omega)]

theorem trailerMatches_append (credible : HeaderPlausible buf)
    (complete : frameLength buf ≤ buf.length) :
    TrailerMatches (buf ++ more) ↔ TrailerMatches buf := by
  have minimal := credible.1
  unfold messageMin at minimal
  unfold TrailerMatches
  rw [frameLength_append more (by unfold messageMin; omega),
    getD_append_left more (by unfold messageTrailerSync; omega),
    getD_append_left more (by unfold messageTrailerCrc; omega),
    getD_append_left more (by unfold messageTrailerCrc; omega),
    take_append_of_le_length (by unfold messageTrailerSize; omega)]

theorem frameAt_append_of_valid {length : Nat} (verdict : frameAt buf = .valid length) :
    frameAt (buf ++ more) = .valid length := by
  rcases frameAt_eq_valid_iff.mp verdict with ⟨credible, trailer, rfl, fits⟩
  have enough : messageMin ≤ buf.length := credible.1.trans fits
  rw [frameAt_eq_valid_iff, headerPlausible_append more enough,
    trailerMatches_append more credible fits, frameLength_append more enough]
  exact ⟨credible, trailer, rfl, by rw [length_append]; omega⟩

theorem frameAt_append_of_invalid (verdict : frameAt buf = .invalid) :
    frameAt (buf ++ more) = .invalid := by
  unfold frameAt at verdict
  split_ifs at verdict with short credible cut trailer
  · have enough : messageMin ≤ buf.length := Nat.le_of_not_lt short
    have complete : frameLength buf ≤ buf.length := Nat.le_of_not_lt cut
    rw [frameAt, if_neg (by rw [length_append]; omega),
      if_neg (not_not.mpr ((headerPlausible_append more enough).mpr credible)),
      if_neg (by rw [frameLength_append more enough, length_append]; omega),
      if_neg ((trailerMatches_append more credible complete).not.mpr trailer)]
  · have enough : messageMin ≤ buf.length := Nat.le_of_not_lt short
    rw [frameAt, if_neg (by rw [length_append]; omega),
      if_pos ((headerPlausible_append more enough).not.mpr credible)]

end Append

/-! ## The scanner -/

def skipByte (byte : UInt8) : ScanStep Bool (List UInt8) where
  consumed := 1
  next := byte ≠ messageSync
  items := []

def frameStep (hunting : Bool) : List UInt8 → Option (ScanStep Bool (List UInt8))
  | [] => none
  | byte :: rest =>
    if hunting then some (skipByte byte)
    else
      match frameAt (byte :: rest) with
      | .incomplete => none
      | .valid length => some ⟨length, false, [(byte :: rest).take length]⟩
      | .invalid => some (skipByte byte)

theorem frameStep_cases (stepped : frameStep hunting buf = some result) :
    (∃ length, frameAt buf = .valid length ∧ result = ⟨length, false, [buf.take length]⟩) ∨
    (∃ byte rest, buf = byte :: rest ∧ result = skipByte byte) := by
  cases buf with
  | nil => cases stepped
  | cons byte rest =>
    simp only [frameStep] at stepped
    by_cases hunts : hunting
    · rw [if_pos hunts] at stepped
      exact .inr ⟨byte, rest, rfl, (Option.some.inj stepped).symm⟩
    rw [if_neg hunts] at stepped
    cases verdict : frameAt (byte :: rest) with
    | incomplete => simp [verdict] at stepped
    | valid length =>
      refine .inl ⟨length, rfl, ?_⟩
      simpa [verdict] using stepped.symm
    | invalid =>
      simpa [verdict] using stepped.symm

/-- The specification of framing. Its state says whether it hunts for a SYNC, its
items are the valid frames in stream order. -/
def frameScanner : Scanner Bool UInt8 (List UInt8) where
  step := frameStep
  consumed_pos := by
    intro hunting buf result stepped
    rcases frameStep_cases stepped with ⟨length, verdict, rfl⟩ | ⟨byte, rest, rfl, rfl⟩
    · rcases frameAt_eq_valid_iff.mp verdict with ⟨credible, -, rfl, -⟩
      exact Nat.lt_of_lt_of_le (by decide : 0 < messageMin) credible.1
    · exact Nat.one_pos
  consumed_le := by
    intro hunting buf result stepped
    rcases frameStep_cases stepped with ⟨length, verdict, rfl⟩ | ⟨byte, rest, rfl, rfl⟩
    · exact (frameAt_eq_valid_iff.mp verdict).2.2.2
    · simp [skipByte]

theorem frameScanner_step_hunting (byte : UInt8) (rest : List UInt8) :
    frameScanner.step true (byte :: rest) = some (skipByte byte) := rfl

theorem frameScanner_step_incomplete (verdict : frameAt buf = .incomplete) :
    frameScanner.step false buf = none := by
  cases buf with
  | nil => rfl
  | cons byte rest => simp [frameScanner, frameStep, verdict]

theorem frameScanner_step_valid {length : Nat} (verdict : frameAt buf = .valid length) :
    frameScanner.step false buf = some ⟨length, false, [buf.take length]⟩ := by
  cases buf with
  | nil => simp [frameAt, messageMin] at verdict
  | cons byte rest => simp [frameScanner, frameStep, verdict]

theorem frameScanner_step_invalid (verdict : frameAt buf = .invalid) :
    frameScanner.step false buf = frameScanner.step true buf := by
  cases buf with
  | nil => rfl
  | cons byte rest => simp [frameScanner, frameStep, verdict]

theorem frameScanner_stable : frameScanner.Stable := by
  intro hunting buf result more stepped
  cases hunting with
  | true =>
    cases buf with
    | nil => cases stepped
    | cons byte rest => exact stepped
  | false =>
    cases verdict : frameAt buf with
    | incomplete =>
      rw [frameScanner_step_incomplete verdict] at stepped
      cases stepped
    | valid length =>
      rcases frameAt_eq_valid_iff.mp verdict with ⟨-, -, -, fits⟩
      rw [frameScanner_step_valid verdict] at stepped
      rw [frameScanner_step_valid (frameAt_append_of_valid more verdict),
        take_append_of_le_length fits]
      exact stepped
    | invalid =>
      rw [frameScanner_step_invalid verdict] at stepped
      rw [frameScanner_step_invalid (frameAt_append_of_invalid more verdict)]
      cases buf with
      | nil => cases stepped
      | cons byte rest => exact stepped

theorem drain_hunting_cons (byte : UInt8) (rest : List UInt8) :
    frameScanner.drain true (byte :: rest) = frameScanner.drain (byte ≠ messageSync) rest := by
  rw [frameScanner.drain_of_some (frameScanner_step_hunting byte rest)]
  simp [skipByte]

/-- A hunt through bytes without a SYNC discards them all and goes on. -/
theorem drain_hunting_of_idxOf?_none (absent : buf.idxOf? messageSync = none) :
    frameScanner.drain true buf = ⟨[], true, []⟩ := by
  induction buf with
  | nil => rfl
  | cons byte rest induction =>
    rw [idxOf?_eq_none_iff, mem_cons, not_or] at absent
    rw [drain_hunting_cons]
    simpa [Ne.symm absent.1] using induction (idxOf?_eq_none_iff.mpr absent.2)

theorem drain_hunting_of_idxOf?_some (found : buf.idxOf? messageSync = some index) :
    frameScanner.drain true buf = frameScanner.drain false (buf.drop (index + 1)) := by
  induction buf generalizing index with
  | nil => simp at found
  | cons byte rest induction =>
    rw [drain_hunting_cons]
    rw [idxOf?_cons] at found
    by_cases isSync : byte = messageSync
    · have atFront : index = 0 := by simpa [isSync] using found.symm
      subst atFront
      simp [isSync]
    · simp only [beq_iff_eq, isSync, if_false, Option.map_eq_some_iff] at found
      rcases found with ⟨previous, foundInRest, rfl⟩
      simpa [isSync] using induction foundInRest

theorem drain_items_of_short (hunting : Bool) (buf : List UInt8) (short : buf.length < messageMin) :
    (frameScanner.drain hunting buf).items = [] := by
  induction hunting, buf using frameScanner.drain_induction with
  | waits hunting buf waiting => simp [frameScanner.drain_of_none waiting]
  | steps hunting buf result stepped induction =>
    have shorter := frameScanner.length_drop_lt stepped
    rw [frameScanner.drain_of_some stepped, ScanSession.prepend_items,
      induction (by omega), append_nil]
    rcases frameStep_cases stepped with ⟨length, verdict, rfl⟩ | ⟨byte, rest, rfl, rfl⟩
    · rw [frameAt_of_short short] at verdict
      cases verdict
    · rfl

end CentauriCarbon.Protocol
