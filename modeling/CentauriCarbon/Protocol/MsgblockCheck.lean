import Mathlib.Data.List.Induction
import CentauriCarbon.Protocol.FrameScanner

/-! # Host framing

`msgblock_check` and the loop of `input_event` around it. The loop is shown to
refine `frameScanner`: it may keep up to four bytes it could already discard, but
it hands over the same frames.
-/

namespace CentauriCarbon.Protocol

/-- The `error` exit of `msgblock_check`: discard through the next SYNC, or
everything when there is none. Returns the negated count and `need_sync`. -/
def discardToSync (buf : List UInt8) : Int × Bool :=
  match buf.idxOf? messageSync with
  | some index => (-(index + 1 : Int), false)
  | none => (-(buf.length : Int), true)

/-- `msgblock_check`: the block length, zero when more data is needed, or the
negated number of bytes to skip, together with the updated `need_sync`. -/
def msgblockCheck (needSync : Bool) (buf : List UInt8) : Int × Bool :=
  if buf.length < messageMin then (0, needSync)
  else if needSync then discardToSync buf
  else
    let msglen := (buf.getD messagePosLen 0).toNat
    if msglen < messageMin ∨ msglen > messageMax then discardToSync buf
    else
      let msgseq := buf.getD messagePosSeq 0
      if msgseq &&& ~~~messageSeqMask ≠ messageDest then discardToSync buf
      else if buf.length < msglen then (0, needSync)
      else if buf.getD (msglen - messageTrailerSync) 0 ≠ messageSync then
        discardToSync buf
      else
        let msgcrc := crcOfBytes (buf.getD (msglen - messageTrailerCrc) 0)
          (buf.getD (msglen - messageTrailerCrc + 1) 0)
        let crc := msgblockCrc16Ccitt (buf.take (msglen - messageTrailerSize))
        if crc ≠ msgcrc then discardToSync buf
        else (msglen, needSync)

variable {buf : List UInt8}

theorem msgblockCheck_of_short (needSync : Bool) (short : buf.length < messageMin) :
    msgblockCheck needSync buf = (0, needSync) := by
  simp [msgblockCheck, short]

theorem msgblockCheck_hunting (enough : messageMin ≤ buf.length) :
    msgblockCheck true buf = discardToSync buf := by
  rw [msgblockCheck, if_neg (Nat.not_lt.mpr enough), if_pos rfl]

/-- In sync, the check takes exactly the decision that framing prescribes. -/
theorem msgblockCheck_synced (buf : List UInt8) : msgblockCheck false buf =
      match frameAt buf with
      | .incomplete => (0, false)
      | .valid length => ((length : Int), false)
      | .invalid => discardToSync buf := by
  by_cases short : buf.length < messageMin
  · rw [msgblockCheck_of_short false short, frameAt_of_short short]
  · rw [msgblockCheck, if_neg short, if_neg Bool.false_ne_true]
    exact frameTests_eq (0, false) (discardToSync buf) (fun length => ((length : Int), false)) short

theorem msgblockCheck_eq_length_iff :
    msgblockCheck false block = ((block.length : Int), false) ∧ block ≠ [] ↔
      frameAt block = .valid block.length := by
  rw [msgblockCheck_synced]
  constructor
  · rintro ⟨checked, nonempty⟩
    have positive : 0 < block.length := List.length_pos_iff.mpr nonempty
    cases verdict : frameAt block with
    | incomplete =>
      simp only [verdict, Prod.mk.injEq, and_true] at checked
      omega
    | valid length =>
      simp only [verdict, Prod.mk.injEq, and_true] at checked
      rw [Int.ofNat_inj.mp checked]
    | invalid =>
      simp only [verdict, discardToSync] at checked
      split at checked <;> simp only [Prod.mk.injEq] at checked <;> omega
  · intro verdict
    refine ⟨by simp [verdict], ?_⟩
    rintro rfl
    simp [frameAt, messageMin] at verdict

/-! ## The loop of `input_event` -/

def inputEventStep (needSync : Bool) (buf : List UInt8) : Option (ScanStep Bool (List UInt8)) :=
  let (len, needSync) := msgblockCheck needSync buf
  if len = 0 then none
  else if len > 0 then some ⟨len.toNat, needSync, [buf.take len.toNat]⟩
  else some ⟨(-len).toNat, needSync, []⟩

def discardStep (buf : List UInt8) : ScanStep Bool (List UInt8) :=
  match buf.idxOf? messageSync with
  | some index => ⟨index + 1, false, []⟩
  | none => ⟨buf.length, true, []⟩

/-! ## What both receivers do with their buffer -/

inductive FramingStep {State : Type} (needSync : State → Bool) (state : State)
    (buf : List UInt8) : Option (ScanStep State (List UInt8)) → Prop
  | waits (reason : buf.length < messageMin ∨
      needSync state = false ∧ frameAt buf = .incomplete) : FramingStep needSync state buf none
  | takes {length : Nat} {next : State} (synced : needSync state = false)
      (verdict : frameAt buf = .valid length) (nextSynced : needSync next = false) :
      FramingStep needSync state buf (some ⟨length, next, [buf.take length]⟩)
  | discards {next : State} (nonempty : buf ≠ [])
      (reason : needSync state = true ∨ frameAt buf = .invalid)
      (nextSync : needSync next = (discardStep buf).next) :
      FramingStep needSync state buf (some ⟨(discardStep buf).consumed, next, []⟩)

namespace FramingStep

variable {State : Type} {needSync : State → Bool} {state : State}
  {outcome : Option (ScanStep State (List UInt8))}
  (step : FramingStep needSync state buf outcome)
include step

theorem consumed_pos (stepped : outcome = some result) : 0 < result.consumed := by
  cases step with
  | waits reason => cases stepped
  | takes synced verdict nextSynced =>
    cases stepped
    rcases frameAt_eq_valid_iff.mp verdict with ⟨credible, -, rfl, -⟩
    exact lt_of_lt_of_le (by decide : 0 < messageMin) credible.1
  | discards nonempty reason nextSync =>
    cases stepped
    unfold discardStep
    cases buf.idxOf? messageSync with
    | none => exact List.length_pos_iff.mpr nonempty
    | some index => exact Nat.succ_pos index

theorem consumed_le (stepped : outcome = some result) : result.consumed ≤ buf.length := by
  cases step with
  | waits reason => cases stepped
  | takes synced verdict nextSynced =>
    cases stepped
    exact (frameAt_eq_valid_iff.mp verdict).2.2.2
  | discards nonempty reason nextSync =>
    cases stepped
    unfold discardStep
    cases found : buf.idxOf? messageSync with
    | none => simp
    | some index =>
      have within := List.findIdx?_eq_some_iff_getElem.mp found
      exact within.1

theorem drain_waits (waiting : outcome = none) :
    (frameScanner.drain (needSync state) buf).items = [] := by
  cases step with
  | waits reason =>
    rcases reason with short | ⟨synced, verdict⟩
    · exact drain_items_of_short _ buf short
    · rw [synced, frameScanner.drain_of_none (frameScanner_step_incomplete verdict)]
  | takes synced verdict nextSynced => cases waiting
  | discards nonempty reason nextSync => cases waiting

theorem drain_steps (stepped : outcome = some result) : frameScanner.drain (needSync state) buf =
      (frameScanner.drain (needSync result.next) (buf.drop result.consumed)).prepend
        result.items := by
  cases step with
  | waits reason => cases stepped
  | takes synced verdict nextSynced =>
    cases stepped
    rw [synced, nextSynced]
    exact frameScanner.drain_of_some (frameScanner_step_valid verdict)
  | discards nonempty reason nextSync =>
    cases stepped
    have hunts : frameScanner.drain (needSync state) buf = frameScanner.drain true buf := by
      rcases reason with hunting | verdict
      · rw [hunting]
      · cases needSync state with
        | true => rfl
        | false =>
          cases buf with
          | nil => exact absurd rfl nonempty
          | cons byte rest =>
            rw [frameScanner.drain_of_some (frameScanner_step_invalid verdict),
              frameScanner.drain_of_some (frameScanner_step_hunting byte rest)]
    rw [hunts, nextSync]
    unfold discardStep
    cases found : buf.idxOf? messageSync with
    | none => simp [drain_hunting_of_idxOf?_none found]; rfl
    | some index => simp [drain_hunting_of_idxOf?_some found]

theorem length_lt (waiting : outcome = none) : buf.length < messageMax := by
  cases step with
  | waits reason =>
    rcases reason with short | ⟨-, verdict⟩
    · exact short.trans (by decide)
    · unfold frameAt at verdict
      split_ifs at verdict with short credible cut trailer
      · unfold messageMin at short
        unfold messageMax
        omega
      · exact lt_of_lt_of_le cut credible.2.1
  | takes synced verdict nextSynced => cases waiting
  | discards nonempty reason nextSync => cases waiting

theorem eq_discards (enough : messageMax ≤ buf.length)
    (noFrame : ∀ length, frameAt buf ≠ .valid length) :
    ∃ next, needSync next = (discardStep buf).next ∧
      outcome = some ⟨(discardStep buf).consumed, next, []⟩ := by
  cases step with
  | waits reason => exact absurd (length_lt (.waits reason) rfl) (Nat.not_lt.mpr enough)
  | takes synced verdict nextSynced => exact absurd verdict (noFrame _)
  | discards nonempty reason nextSync => exact ⟨_, nextSync, rfl⟩

end FramingStep

theorem inputEventStep_of_discard (enough : messageMin ≤ buf.length)
    (checked : msgblockCheck needSync buf = discardToSync buf) : inputEventStep needSync buf =
      some ⟨(discardStep buf).consumed, (discardStep buf).next, []⟩ := by
  have positive : 0 < buf.length := lt_of_lt_of_le (by decide) enough
  unfold inputEventStep
  rw [checked]
  unfold discardToSync discardStep
  cases found : buf.idxOf? messageSync with
  | none =>
    have nonzero : ¬ (-(buf.length : Int)) = 0 := by omega
    have negative : ¬ (-(buf.length : Int)) > 0 := by omega
    simp only [nonzero, negative, if_false, Int.neg_neg, Int.toNat_natCast]
  | some index =>
    have nonzero : ¬ (-(index + 1 : Int)) = 0 := by omega
    have negative : ¬ (-(index + 1 : Int)) > 0 := by omega
    have count : (-(-(index + 1 : Int))).toNat = index + 1 := by omega
    simp only [nonzero, negative, if_false, count]

theorem inputEventStep_framing (needSync : Bool) (buf : List UInt8) :
    FramingStep id needSync buf (inputEventStep needSync buf) := by
  by_cases short : buf.length < messageMin
  · have waits : inputEventStep needSync buf = none := by
      simp [inputEventStep, msgblockCheck_of_short needSync short]
    rw [waits]
    exact .waits (.inl short)
  have enough : messageMin ≤ buf.length := Nat.le_of_not_lt short
  have nonempty : buf ≠ [] := by
    rintro rfl
    exact short (by decide)
  cases needSync with
  | true =>
    rw [inputEventStep_of_discard enough (msgblockCheck_hunting enough)]
    exact .discards nonempty (.inl rfl) rfl
  | false =>
    have checked := msgblockCheck_synced buf
    cases verdict : frameAt buf with
    | incomplete =>
      have waits : inputEventStep false buf = none := by
        simp [inputEventStep, checked, verdict]
      rw [waits]
      exact .waits (.inr ⟨rfl, verdict⟩)
    | valid length =>
      rcases frameAt_eq_valid_iff.mp verdict with ⟨credible, -, rfl, -⟩
      have positive : 0 < frameLength buf := lt_of_lt_of_le (by decide) credible.1
      have nonzero : ¬ ((frameLength buf : Int)) = 0 := by omega
      have aboveZero : (frameLength buf : Int) > 0 := by omega
      simp only [inputEventStep, checked, verdict, nonzero, aboveZero, if_false,
        if_true, Int.toNat_natCast]
      exact .takes rfl verdict rfl
    | invalid =>
      rw [inputEventStep_of_discard enough (by simp [checked, verdict])]
      exact .discards nonempty (.inr verdict) rfl

def inputScanner : Scanner Bool UInt8 (List UInt8) where
  step := inputEventStep
  consumed_pos := (inputEventStep_framing _ _).consumed_pos
  consumed_le := (inputEventStep_framing _ _).consumed_le

theorem inputScanner_refines : inputScanner.Refines frameScanner id where
  waits needSync buf := (inputEventStep_framing needSync buf).drain_waits
  steps needSync buf _ := (inputEventStep_framing needSync buf).drain_steps

/-- `input_event` stores what `read` returned and runs the loop. The session's
items are the blocks handed to `handle_message` so far. -/
def inputEvent (session : ScanSession Bool UInt8 (List UInt8))
    (data : List UInt8) : ScanSession Bool UInt8 (List UInt8) :=
  inputScanner.settle (Scanner.receive session data)

/-- The reads of a connection, from an empty buffer and either value of
`need_sync`. -/
def inputEvents (needSync : Bool) (reads : List (List UInt8)) :
    ScanSession Bool UInt8 (List UInt8) :=
  reads.foldl inputEvent ⟨[], needSync, []⟩

variable (needSync : Bool) (reads : List (List UInt8))

/-- Whatever the reads, the host's session agrees with framing of the whole
stream received. -/
theorem inputEvents_agrees :
    frameScanner.Agrees id needSync reads.flatten (inputEvents needSync reads) := by
  induction reads using List.reverseRecOn with
  | nil => rfl
  | append_singleton reads data induction =>
    have received := induction.receive frameScanner_stable data
    have settled := received.settle inputScanner_refines
    simpa [inputEvents, inputEvent] using settled

theorem inputEvents_waits : inputScanner.step (inputEvents needSync reads).state
      (inputEvents needSync reads).buffer = none := by
  induction reads using List.reverseRecOn with
  | nil => exact inputScanner.step_nil needSync
  | append_singleton reads data _ =>
    simpa [inputEvents, inputEvent] using inputScanner.step_settle _

theorem inputEvents_items :
    (inputEvents needSync reads).items = (frameScanner.drain needSync reads.flatten).items :=
  (inputEvents_agrees needSync reads).items_eq inputScanner_refines
    (inputEvents_waits needSync reads)

end CentauriCarbon.Protocol
