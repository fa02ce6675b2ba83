import CentauriCarbon.Clock.Uptime
import Mathlib.Data.Nat.Bitwise

/-! # The clock of the micro-controller on the host

`ClockSync` extends the 32-bit clocks that the micro-controller sends to 64 bits, starting from
the answer to `get_uptime`. The serial queue does so too, from the last clock that `ClockSync`
has passed on to it. What `handle_clock` computes from floating-point times enters only through
the use it makes of a response.
-/

namespace CentauriCarbon.Clock

structure ClockEstimate where
  lastClock : UInt64

structure ClockSync where
  lastClock : UInt64
  ce : ClockEstimate

/-- What `handle_clock` makes of a response: one without `#sent_time` and one that is too far
from the prediction are not used for the estimate. -/
inductive SampleUse where
  | noSentTime
  | ignored
  | estimate
  deriving DecidableEq

/-- `ClockSync::connect` with the answer to `get_uptime`. The clock estimate of the serial
queue has not been set. -/
def connect (params : Uptime) : ClockSync where
  lastClock := (params.high.toUInt64 <<< 32) ||| params.clock.toUInt64
  ce := ⟨0⟩

def handleClock (sync : ClockSync) (clock : UInt32) (use : SampleUse) : ClockSync :=
  let clockDelta := (clock.toUInt64 - sync.lastClock) &&& 0xffffffff
  let clock := sync.lastClock + clockDelta
  match use with
  | .noSentTime => { sync with lastClock := clock }
  | .ignored => { sync with lastClock := clock }
  | .estimate => { lastClock := clock, ce := ⟨clock⟩ }

def clock32ToClock64 (sync : ClockSync) (clock32 : UInt32) : UInt64 :=
  let clockDiff := (clock32.toUInt64 - sync.lastClock) &&& 0xffffffff
  let clockDiff := clockDiff - ((clockDiff &&& 0x80000000) <<< 1)
  sync.lastClock + clockDiff

def clockFromClock32 (ce : ClockEstimate) (clock32 : UInt32) : UInt64 :=
  ce.lastClock + (clock32.toUInt64 - ce.lastClock).toUInt32.toInt32.toInt64.toUInt64

/-! ## Extending a word -/

theorem toNat_low_word (word : UInt64) : (word &&& 0xffffffff).toNat = word.toNat % 2 ^ 32 :=
  Nat.and_two_pow_sub_one_eq_mod _ 32

theorem toNat_clock (time : Nat) : (UInt32.ofNat time).toUInt64.toNat = time % 2 ^ 32 := by
  rw [UInt32.toNat_toUInt64, UInt32.toNat_ofNat']

/-- The ticks since an earlier time, as far as the low words tell them. -/
theorem toNat_clock_sub (last time : Nat) :
    ((UInt32.ofNat time).toUInt64 - UInt64.ofNat last).toNat % 2 ^ 32 =
      (time + 2 ^ 32 - last % 2 ^ 32) % 2 ^ 32 := by
  rw [UInt64.toNat_sub, toNat_clock, UInt64.toNat_ofNat']
  omega

theorem toNat_sign_shifted (word : UInt64) : (((word &&& 0xffffffff) &&& 0x80000000) <<< 1).toNat =
      if word.toNat % 2 ^ 32 < 2 ^ 31 then 0 else 2 ^ 32 := by
  have sign : (word.toNat % 2 ^ 32) &&& 2 ^ 31 =
      if word.toNat % 2 ^ 32 < 2 ^ 31 then 0 else 2 ^ 31 := by
    rw [Nat.and_two_pow, Nat.testBit_eq_decide_div_mod_eq]
    split
    next small =>
      rw [Nat.div_eq_of_lt small]
      rfl
    next large =>
      have one : word.toNat % 2 ^ 32 / 2 ^ 31 % 2 = 1 := by omega
      rw [one]
      rfl
  rw [UInt64.toNat_shiftLeft, UInt64.toNat_and, toNat_low_word]
  change ((word.toNat % 2 ^ 32) &&& 2 ^ 31) <<< 1 % 2 ^ 64 = _
  rw [sign]
  split <;> rfl

theorem toNat_signExtended (word : UInt32) : word.toInt32.toInt64.toUInt64.toNat =
      if word.toNat < 2 ^ 31 then word.toNat else word.toNat + (2 ^ 64 - 2 ^ 32) := by
  change (word.toBitVec.signExtend 64).toNat = _
  rw [BitVec.toNat_signExtend, BitVec.toNat_setWidth, BitVec.msb_eq_decide]
  change word.toNat % 2 ^ 64 + (if decide (2 ^ 31 ≤ word.toNat) = true then _ else 0) = _
  have bound := word.toNat_lt
  simp only [decide_eq_true_iff]
  split <;> split <;> omega

theorem connect_lastClock (high : params.high = .ofNat (time / 2 ^ 32))
    (clock : params.clock = .ofNat time) : (connect params).lastClock = .ofNat time := by
  have joined : (time / 2 ^ 32 % 2 ^ 32) <<< 32 ||| time % 2 ^ 32 =
      (time / 2 ^ 32 % 2 ^ 32) * 2 ^ 32 + time % 2 ^ 32 := by
    rw [← Nat.shiftLeft_add_eq_or_of_lt (Nat.mod_lt _ (by decide)), Nat.shiftLeft_eq]
  apply UInt64.toNat_inj.mp
  rw [connect, high, clock, UInt64.toNat_or, toNat_clock, UInt64.toNat_shiftLeft,
    UInt32.toNat_toUInt64, UInt32.toNat_ofNat', UInt64.toNat_ofNat']
  change (time / 2 ^ 32 % 2 ^ 32) <<< 32 % 2 ^ 64 ||| time % 2 ^ 32 = _
  rw [Nat.mod_eq_of_lt (a := (time / 2 ^ 32 % 2 ^ 32) <<< 32), joined]
  · omega
  · rw [Nat.shiftLeft_eq]
    omega

variable {sync : ClockSync}

def Near (last clock : Nat) : Prop := last ≤ clock + 2 ^ 31 ∧ clock < last + 2 ^ 31

/-! ## Sequences of responses -/

structure Sample where
  time : Nat
  use : SampleUse

def handleSample (sync : ClockSync) (sample : Sample) : ClockSync :=
  handleClock sync (.ofNat sample.time) sample.use

/-- Responses in the order of their times, each less than a turn after the one before. -/
def InOrder (last : Nat) : List Sample → Prop
  | [] => True
  | sample :: samples =>
    last ≤ sample.time ∧ sample.time < last + 2 ^ 32 ∧ InOrder sample.time samples

def lastTime (start : Nat) (samples : List Sample) : Nat :=
  samples.foldl (fun _ sample => sample.time) start

def lastEstimate (samples : List Sample) : Option Nat :=
  (samples.reverse.find? fun sample => sample.use = .estimate).map Sample.time

theorem lastEstimate_cons (sample : Sample) (samples : List Sample) :
    lastEstimate (sample :: samples) = (lastEstimate samples).or (lastEstimate [sample]) := by
  rw [lastEstimate, lastEstimate, lastEstimate, List.reverse_cons, List.find?_append,
    List.reverse_singleton]
  cases samples.reverse.find? fun sample => sample.use = .estimate <;> rfl

theorem handleSample_ce (sync : ClockSync) (sample : Sample) : (handleSample sync sample).ce =
      if sample.use = .estimate then ⟨(handleSample sync sample).lastClock⟩ else sync.ce := by
  rcases sample with ⟨time, use⟩
  cases use <;> rfl

/-- The host follows the clock, and the serial queue the last clock passed on to it. -/
theorem handleSamples (lastClock : sync.lastClock = .ofNat last) (inOrder : InOrder last samples) :
    (samples.foldl handleSample sync).lastClock = .ofNat (lastTime last samples) ∧
      ((lastEstimate samples = none ∧ (samples.foldl handleSample sync).ce = sync.ce) ∨
        ∃ given, lastEstimate samples = some given ∧
          (samples.foldl handleSample sync).ce.lastClock = .ofNat given) := by
  induction samples generalizing sync last with
  | nil => exact ⟨lastClock, .inl ⟨rfl, rfl⟩⟩
  | cons sample samples induction =>
    rcases inOrder with ⟨ordered, near, rest⟩
    have handled : (handleSample sync sample).lastClock = .ofNat sample.time := by
      have moved : sync.lastClock +
          (((UInt32.ofNat sample.time).toUInt64 - sync.lastClock) &&& 0xffffffff) =
            .ofNat sample.time := by
        apply UInt64.toNat_inj.mp
        rw [lastClock, UInt64.toNat_add, toNat_low_word, toNat_clock_sub, UInt64.toNat_ofNat',
          UInt64.toNat_ofNat']
        omega
      rcases sample with ⟨time, use⟩
      cases use with
      | noSentTime => exact moved
      | ignored => exact moved
      | estimate => exact moved
    have passedOn := handleSample_ce sync sample
    rcases induction handled rest with ⟨followed, estimates⟩
    refine ⟨followed, ?_⟩
    rw [lastEstimate_cons, List.foldl_cons]
    rcases estimates with ⟨none_later, same⟩ | ⟨given, later, estimate⟩
    · rw [none_later, same, Option.none_or, passedOn]
      by_cases used : sample.use = .estimate
      · right
        refine ⟨sample.time, ?_, ?_⟩
        · simp [lastEstimate, used]
        · rw [if_pos used]
          exact handled
      · left
        simp [lastEstimate, used]
    · rw [later]
      exact .inr ⟨given, rfl, estimate⟩

/-- The micro-controller answers `get_uptime` with its true number of ticks. From there on the
host has the true time of the last response, and extends every clock near it exactly; so does
the serial queue for every clock near the last one passed on to it. -/
theorem clocks_exact {fiveSeconds : UInt32} (positive : 0 < fiveSeconds)
    {events : List McuEvent} {mcu : Mcu}
    (ran : runEvents (mcuStep fiveSeconds) .powerUp events = some mcu) :
    let uptime := commandGetUptime mcu.stats mcu.timerReadTime
    uptime.high.toNat * 2 ^ 32 + uptime.clock.toNat = mcu.time % 2 ^ 64 ∧
      ∀ samples, InOrder mcu.time samples →
        let sync := samples.foldl handleSample (connect uptime)
        let last := lastTime mcu.time samples
        sync.lastClock = .ofNat last ∧
        (∀ clock, Near last clock → clock32ToClock64 sync (.ofNat clock) = .ofNat clock) ∧
        ∀ given, lastEstimate samples = some given →
          ∀ clock, Near given clock → clockFromClock32 sync.ce (.ofNat clock) = .ofNat clock := by
  intro uptime
  have high : uptime.high = .ofNat (mcu.time / 2 ^ 32) := uptime_of_run positive ran
  have clock : uptime.clock = .ofNat mcu.time := rfl
  constructor
  · rw [high, clock, UInt32.toNat_ofNat', UInt32.toNat_ofNat']
    omega
  intro samples inOrder sync last
  rcases handleSamples (connect_lastClock high clock) inOrder with ⟨followed, estimates⟩
  refine ⟨followed, ?_, ?_⟩
  · rintro clock ⟨notBefore, notAfter⟩
    have diff := toNat_clock_sub last clock
    rw [clock32ToClock64, followed]
    apply UInt64.toNat_inj.mp
    rw [UInt64.toNat_add, UInt64.toNat_sub, toNat_sign_shifted, toNat_low_word, diff,
      UInt64.toNat_ofNat', UInt64.toNat_ofNat']
    split <;> omega
  intro given isLast clock near
  rcases estimates with ⟨none_given, -⟩ | ⟨other, isOther, estimate⟩
  · rw [none_given] at isLast
    cases isLast
  · rw [isOther] at isLast
    cases isLast
    rcases near with ⟨notBefore, notAfter⟩
    have diff := toNat_clock_sub given clock
    rw [clockFromClock32, estimate]
    apply UInt64.toNat_inj.mp
    rw [UInt64.toNat_add, toNat_signExtended, UInt64.toNat_toUInt32, diff, UInt64.toNat_ofNat',
      UInt64.toNat_ofNat']
    split <;> omega

/-- The low word wraps while the micro-controller runs and again between two responses. -/
theorem clocks_exact_after_wraps :
    let mcu : Mcu := ⟨6000000000, 4000000000, ⟨0, 0, 0, 4000000000, 0⟩⟩
    let samples : List Sample := [⟨8000000000, .noSentTime⟩, ⟨9000000000, .estimate⟩]
    let sync := samples.foldl handleSample
      (connect (commandGetUptime mcu.stats mcu.timerReadTime))
    runEvents (mcuStep 1000) .powerUp
        [.tick 2000000000, .statsUpdate 0, .tick 2000000000, .statsUpdate 0,
          .tick 2000000000] = some mcu ∧
      clock32ToClock64 sync (.ofNat 8500000000) = .ofNat 8500000000 ∧
      clockFromClock32 sync.ce (.ofNat 8500000000) = .ofNat 8500000000 := by
  intro mcu samples sync
  have ran : runEvents (mcuStep 1000) .powerUp
      [.tick 2000000000, .statsUpdate 0, .tick 2000000000, .statsUpdate 0,
        .tick 2000000000] = some mcu := by
    decide +kernel
  have inOrder : InOrder mcu.time samples := ⟨by decide, by decide, by decide, by decide, trivial⟩
  rcases (clocks_exact (by decide) ran).2 samples inOrder with ⟨-, host, queue⟩
  refine ⟨ran, host 8500000000 ⟨by decide, by decide⟩, ?_⟩
  exact queue 9000000000 rfl 8500000000 ⟨by decide, by decide⟩

/-- Two responses more than half a turn apart, the second without `#sent_time`: the serial queue
still extends from the first and is a whole turn off. -/
theorem clocks_disagree :
    let uptime := commandGetUptime Mcu.powerUp.stats Mcu.powerUp.timerReadTime
    let samples : List Sample := [⟨100, .estimate⟩, ⟨3000000100, .noSentTime⟩]
    InOrder 0 samples ∧
      let sync := samples.foldl handleSample (connect uptime)
      sync.lastClock = 3000000100 ∧
      clock32ToClock64 sync (.ofNat 3000000100) = 3000000100 ∧
      clockFromClock32 sync.ce (.ofNat 3000000100) = 3000000100 - 0x100000000 := by
  refine ⟨⟨by decide, by decide, by decide, by decide, trivial⟩, ?_⟩
  decide

end CentauriCarbon.Clock
