import CentauriCarbon.Foundation.RunDetector
import CentauriCarbon.LoadCell.Endstop

/-! # Probing sessions

What a probing session is for: the samples of the session are filtered and judged, and the
first run of `sample_count` triggering samples is the trigger. The endstop follows this only
if its counter is full and its trigger view is clear when the session starts, and if no
sample interrupts a run of two or more triggering samples.
-/

namespace CentauriCarbon.LoadCell

open List Scheduler

structure Sample where
  counts : Int32
  ticks : UInt32

def judgeSample (range : EndstopRange) (sf : SosFilter) (counts : Int32) :
    Except FilterShutdown (SosFilter × Bool) :=
  if range.triggerGrams = 0 then .ok (sf, false)
  else if overflowsInt32 (countsToGrams range counts) then .ok (sf, true)
  else
    (sf.sosfilt (Int32.ofInt (countsToGrams range counts))).map fun (sf, filteredGrams) =>
      (sf, decide (filteredGrams ≤ -range.triggerGramsFixed))

def judge (range : EndstopRange) (sf : SosFilter) :
    List Sample → Except FilterShutdown (List (Sample × Bool))
  | [] => .ok []
  | sample :: samples =>
    match judgeSample range sf sample.counts with
    | .error reason => .error reason
    | .ok (sf, isTrigger) => (judge range sf samples).map fun judged =>
      (sample, isTrigger) :: judged

def homingSamples (clock : UInt32) (samples : List Sample) : List Sample :=
  samples.dropWhile fun sample => timerIsBefore sample.ticks clock

/-- No sample interrupts a run of two or more triggering samples before one is found. -/
def Uninterrupted (range : EndstopRange) (length : ℕ) (sf : SosFilter)
    (detector : RunDetector Sample) : List Sample → Prop
  | [] => True
  | sample :: samples =>
    match judgeSample range sf sample.counts with
    | .error _ => True
    | .ok (sf, isTrigger) =>
      (detector.found = none → isTrigger = false → detector.run.length ≤ 1) ∧
      Uninterrupted range length sf (detector.step length (sample, isTrigger)) samples

/-! ## What the endstop does -/

namespace LoadCellEndstop

def reportSamples (lce : LoadCellEndstop) : List Sample → Except FilterShutdown LoadCellEndstop
  | [] => .ok lce
  | sample :: samples =>
    match lce.reportSample sample.counts sample.ticks with
    | .error reason => .error reason
    | .ok lce => lce.reportSamples samples

variable (lce : LoadCellEndstop)

def Reports : List Sample → Prop
  | [] => lce.triggerTicks = 0
  | first :: _ => lce.triggerTicks = first.ticks ∧ lce.triggerSample = first.counts

structure Detection where
  range : EndstopRange
  sf : SosFilter
  sampleCount : UInt8
  isHoming : Bool
  isHomingTrigger : Bool
  isTriggered : Bool
  triggerCount : UInt8
  triggerTicks : UInt32
  triggerSample : Int32

def detection : Detection where
  range := lce.range
  sf := lce.sf
  sampleCount := lce.sampleCount
  isHoming := lce.isHoming
  isHomingTrigger := lce.isHomingTrigger
  isTriggered := lce.isTriggered
  triggerCount := lce.triggerCount
  triggerTicks := lce.triggerTicks
  triggerSample := lce.triggerSample

@[simp] theorem signal_detection (reason : UInt8) :
    (lce.signal reason).detection = lce.detection := by
  rw [signal]
  split <;> rfl

@[simp] theorem releasePin_detection : lce.releasePin.detection = lce.detection := by
  rw [releasePin]
  split <;> rfl

@[simp] theorem tryTriggerError_detection : lce.tryTriggerError.detection = lce.detection := by
  rw [tryTriggerError]
  split
  · exact signal_detection _ _
  · rfl

theorem checkSafety_detection (sample : Int32) :
    (lce.checkSafety sample).detection = lce.detection := by
  rw [checkSafety]
  split
  · exact tryTriggerError_detection _
  · rfl

/-- The endstop follows the detector. `stale` is the reported sample of an earlier session. -/
structure Follows (lce : LoadCellEndstop) (stale : Int32) (range : EndstopRange) (sf : SosFilter)
    (length : ℕ) (detector : RunDetector Sample) : Prop where
  range_eq : lce.range = range
  sf_eq : lce.sf = sf
  count_eq : lce.sampleCount.toNat = length
  homing : lce.isHoming = true
  sample_eq : lce.triggerSample = (detector.latest.map Sample.counts).getD stale
  searching : detector.found = none → lce.isHomingTrigger = false ∧
    lce.isTriggered = false ∧ detector.run.length < length ∧
    lce.triggerCount.toNat + detector.run.length = length ∧ lce.Reports detector.run
  found : ∀ run, detector.found = some run → lce.isHomingTrigger = true ∧ run ≠ [] ∧ lce.Reports run

variable {lce other : LoadCellEndstop} {stale : Int32} {range : EndstopRange} {sf : SosFilter}
  {length : ℕ}

theorem Reports.congr (reports : lce.Reports run) (ticks : other.triggerTicks = lce.triggerTicks)
    (sample : other.triggerSample = lce.triggerSample) : other.Reports run := by
  cases run with
  | nil => exact ticks.trans reports
  | cons first rest => exact ⟨ticks.trans reports.1, sample.trans reports.2⟩

theorem Reports.sample_eq (reports : lce.Reports (run ++ [last])) :
    lce.triggerSample = ((run ++ [last]).head?.map Sample.counts).getD stale := by
  cases run with
  | nil | cons => exact reports.2

/-! ## One sample -/

theorem forceTriggers_eq (lce : LoadCellEndstop) (counts : Int32)
    (grams : lce.range.triggerGrams ≠ 0) : match judgeSample lce.range lce.sf counts with
    | .error reason =>
      lce.forceTriggers (countsToGrams lce.range counts) = .error reason
    | .ok (sf, isTrigger) =>
      ∃ next, lce.forceTriggers (countsToGrams lce.range counts) = .ok (next, isTrigger) ∧
        next.detection = { lce with sf }.detection := by
  rw [judgeSample, if_neg grams, forceTriggers]
  cases overflows : overflowsInt32 (countsToGrams lce.range counts) with
  | true => exact ⟨_, rfl, tryTriggerError_detection _⟩
  | false =>
    cases lce.sf.sosfilt (Int32.ofInt (countsToGrams lce.range counts)) with
    | error reason => rfl
    | ok result => exact ⟨_, rfl, rfl⟩

theorem updateTrigger_of_triggered (triggered : lce.isHomingTrigger) (sample : Int32)
    (ticks : UInt32) (isTrigger : Bool) : ∃ isTriggered triggerCount,
      (lce.updateTrigger sample ticks isTrigger).detection =
        { lce with isTriggered, triggerCount }.detection := by
  rw [updateTrigger]
  simp only [triggered, Bool.not_true, Bool.and_false, Bool.false_and, Bool.false_eq_true, if_false]
  split
  · split
    · rw [tryTrigger]
      simp only [Bool.not_true, Bool.and_false, Bool.false_eq_true, if_false]
      exact ⟨_, _, rfl⟩
    · exact ⟨_, _, rfl⟩
  · split
    · rw [clearTriggered, releasePin_detection]
      split <;> exact ⟨_, _, rfl⟩
    · exact ⟨lce.isTriggered, lce.triggerCount, by simp only [detection, triggered]⟩

def noteFirst (sample : Int32) (ticks : UInt32) : LoadCellEndstop :=
  if lce.triggerCount == lce.sampleCount then
    { lce with triggerTicks := ticks, triggerSample := sample }
  else lce

theorem updateTrigger_true (homing : lce.isHoming) (untriggered : lce.isHomingTrigger = false)
    (positive : 0 < lce.triggerCount) (sample : Int32) (ticks : UInt32) :
    (lce.updateTrigger sample ticks true).detection =
      if lce.triggerCount - 1 = 0 then
        { lce.noteFirst sample ticks with
          triggerCount := lce.triggerCount - 1
          isTriggered := true
          isHomingTrigger := true }.detection
      else { lce.noteFirst sample ticks with triggerCount := lce.triggerCount - 1 }.detection := by
  rw [updateTrigger, noteFirst]
  simp only [homing, untriggered, positive, Bool.not_false, Bool.and_true, Bool.true_and,
    decide_true, gt_iff_lt, if_true]
  cases full : lce.triggerCount == lce.sampleCount with
  | true =>
    simp only [if_true]
    split
    · exact signal_detection _ _
    · rfl
  | false =>
    simp only [Bool.false_eq_true, if_false]
    split
    · simp only [homing, untriggered]
      exact signal_detection _ _
    · rfl

theorem noteFirst_eq (lce : LoadCellEndstop) (sample : Int32) (ticks : UInt32) :
    ∃ triggerTicks triggerSample,
      lce.noteFirst sample ticks = { lce with triggerTicks, triggerSample } := by
  rw [noteFirst]
  split <;> exact ⟨_, _, rfl⟩

theorem updateTrigger_false (homing : lce.isHoming) (untriggered : lce.isHomingTrigger = false)
    (missing : lce.triggerCount.toNat < lce.sampleCount.toNat) (sample : Int32) (ticks : UInt32) :
    (lce.updateTrigger sample ticks false).detection =
      { lce with
        triggerCount := lce.triggerCount + 1
        isTriggered := false
        triggerTicks := 0 }.detection := by
  have bound := lce.sampleCount.toNat_lt
  have more : (lce.triggerCount + 1).toNat = lce.triggerCount.toNat + 1 := by
    change (lce.triggerCount.toNat + 1) % 2 ^ 8 = _
    omega
  have isMissing : lce.triggerCount < lce.sampleCount := UInt8.lt_iff_toNat_lt.mpr missing
  have notMore : ¬lce.triggerCount + 1 > lce.sampleCount := by
    rw [gt_iff_lt, UInt8.lt_iff_toNat_lt, more]
    omega
  rw [updateTrigger]
  simp only [Bool.false_and, Bool.not_false, Bool.false_eq_true, if_false, isMissing,
    decide_true, if_true, notMore, clearTriggered, releasePin, untriggered, Bool.and_true]
  cases lce.useGpio with
  | true => simp only [if_true, homing, detection]
  | false => simp only [Bool.false_eq_true, if_false, if_true, homing, detection]

def Outcome (stale : Int32) (detector : RunDetector Sample) : Prop :=
  lce.isHomingTrigger = detector.found.isSome ∧ lce.Reports (detector.found.getD detector.run) ∧
    lce.triggerSample = (detector.latest.map Sample.counts).getD stale ∧
    ∀ run, detector.found = some run → run ≠ []

section

variable (follows : lce.Follows stale range sf length detector)
include follows

theorem Follows.congr (same : other.detection = lce.detection) :
    other.Follows stale range sf length detector := by
  rcases Detection.mk.inj same with
    ⟨range, sf, samples, homing, latch, view, missing, ticks, sample⟩
  exact {
    range_eq := range.trans follows.range_eq
    sf_eq := sf.trans follows.sf_eq
    count_eq := samples ▸ follows.count_eq
    homing := homing.trans follows.homing
    sample_eq := sample.trans follows.sample_eq
    searching := by
      intro none
      rcases follows.searching none with ⟨untriggered, clear, shorter, count, reports⟩
      rw [latch, view, missing]
      exact ⟨untriggered, clear, shorter, count, reports.congr ticks sample⟩
    found := by
      intro run isRun
      rcases follows.found run isRun with ⟨triggered, nonempty, reports⟩
      exact ⟨latch.trans triggered, nonempty, reports.congr ticks sample⟩ }

theorem Follows.outcome : lce.Outcome stale detector := by
  refine ⟨?_, ?_, follows.sample_eq, fun run isRun => (follows.found run isRun).2.1⟩
  all_goals cases isFound : detector.found with
  | none => simp [follows.searching isFound]
  | some run => simp [follows.found run isFound]

section

variable (searching : detector.found = none) (sample : Sample)
include searching

/-- The first sample of the run is the one reported, also after another one. -/
theorem Follows.noteFirst_reports :
    (lce.noteFirst sample.counts sample.ticks).Reports (detector.run ++ [sample]) := by
  rcases follows.searching searching with ⟨_, _, _, count, reports⟩
  have count_eq := follows.count_eq
  rw [noteFirst]
  cases run : detector.run with
  | nil =>
    rw [run] at count
    have full : lce.triggerCount = lce.sampleCount := by
      apply UInt8.toNat.inj
      rw [count_eq]
      exact count
    rw [if_pos (beq_iff_eq.mpr full)]
    exact ⟨rfl, rfl⟩
  | cons oldest rest =>
    rw [run] at count reports
    have notFull : ¬(lce.triggerCount == lce.sampleCount) := by
      rw [beq_iff_eq]
      intro full
      rw [full, count_eq, length_cons] at count
      omega
    rw [if_neg notFull]
    exact reports

theorem Follows.update_true :
    (lce.updateTrigger sample.counts sample.ticks true).Follows stale range sf length
      (detector.step length (sample, true)) := by
  rcases follows.searching searching with ⟨untriggered, clear, shorter, count, reports⟩
  have count_eq := follows.count_eq
  have positive : 0 < lce.triggerCount := by
    change 0 < lce.triggerCount.toNat
    omega
  have less : (lce.triggerCount - 1).toNat = lce.triggerCount.toNat - 1 :=
    UInt8.toNat_sub_of_le _ _ (UInt8.le_iff_toNat_le.mpr (UInt8.lt_iff_toNat_lt.mp positive))
  have first := follows.noteFirst_reports searching sample
  have update := updateTrigger_true follows.homing untriggered positive sample.counts sample.ticks
  rcases lce.noteFirst_eq sample.counts sample.ticks with ⟨triggerTicks, triggerSample, noted⟩
  rw [noted] at first update
  rw [RunDetector.step, searching]
  simp only [Option.isSome_none, Bool.false_eq_true, if_false, if_true, length_append,
    length_singleton]
  by_cases last : detector.run.length + 1 = length
  · have zero : lce.triggerCount - 1 = 0 := by
      apply UInt8.toNat.inj
      rw [less]
      change lce.triggerCount.toNat - 1 = 0
      omega
    rw [if_pos zero] at update
    rw [if_pos last]
    refine Follows.congr ?_ update
    exact { follows with
      sample_eq := first.sample_eq
      searching := by simp
      found := by
        intro run isRun
        cases isRun
        exact ⟨rfl, by simp, first⟩ }
  have notZero : ¬lce.triggerCount - 1 = 0 := by
    intro zero
    rw [zero] at less
    change 0 = lce.triggerCount.toNat - 1 at less
    omega
  rw [if_neg notZero] at update
  rw [if_neg last]
  refine Follows.congr ?_ update
  exact { follows with
    sample_eq := first.sample_eq
    searching := by
      intro _
      refine ⟨untriggered, clear, ?_, ?_, first⟩
      · rw [length_append, length_singleton]
        omega
      · rw [length_append, length_singleton]
        dsimp only
        omega
    found := by simp }

/-- A sample that does not trigger leaves a counter alone that is full, and fills one that
misses a single sample. -/
theorem Follows.update_false (short : detector.run.length ≤ 1) :
    (lce.updateTrigger sample.counts sample.ticks false).Follows stale range sf length
      (detector.step length (sample, false)) := by
  rcases follows.searching searching with ⟨untriggered, clear, shorter, count, reports⟩
  have count_eq := follows.count_eq
  have positive : 0 < length := by omega
  have isStep : detector.step length (sample, false) = ⟨[], none, detector.latest⟩ := by
    rw [RunDetector.step, searching]
    rfl
  rw [isStep]
  cases run : detector.run with
  | nil =>
    rw [run] at reports count
    have full : ¬lce.triggerCount < lce.sampleCount := by
      rw [UInt8.lt_iff_toNat_lt, count_eq, ← count]
      exact lt_irrefl _
    have unchanged : lce.updateTrigger sample.counts sample.ticks false = lce := by
      rw [updateTrigger]
      simp [full]
    rw [unchanged]
    exact { follows with
      searching := fun _ => ⟨untriggered, clear, positive, count, reports⟩
      found := by simp }
  | cons only rest =>
    rw [run, length_cons] at short count
    have missing : lce.triggerCount.toNat < lce.sampleCount.toNat := by omega
    have bound := lce.sampleCount.toNat_lt
    have more : (lce.triggerCount + 1).toNat = lce.triggerCount.toNat + 1 := by
      change (lce.triggerCount.toNat + 1) % 2 ^ 8 = _
      omega
    refine Follows.congr ?_ (updateTrigger_false follows.homing untriggered missing _ _)
    exact { follows with
      searching := by
        intro _
        refine ⟨untriggered, rfl, positive, ?_, rfl⟩
        rw [more, length_nil]
        omega
      found := by simp }

end

theorem Follows.update (sample : Sample) (rawGrams : ℤ) (isTrigger : Bool)
    (uninterrupted : detector.found = none → isTrigger = false → detector.run.length ≤ 1) :
    (lce.updateTrigger sample.counts sample.ticks
      (lce.latchTrigger rawGrams isTrigger)).Follows stale range sf length
      (detector.step length (sample, isTrigger)) := by
  cases isFound : detector.found with
  | none =>
    have clear := (follows.searching isFound).2.1
    have judgement : lce.latchTrigger rawGrams isTrigger = isTrigger := by
      rw [latchTrigger, clear]
      rfl
    rw [judgement]
    cases isTrigger with
    | true => exact follows.update_true isFound sample
    | false => exact follows.update_false isFound sample (uninterrupted isFound rfl)
  | some run =>
    have isStep : detector.step length (sample, isTrigger) = detector := by
      rw [RunDetector.step, isFound]
      rfl
    have triggered := (follows.found run isFound).1
    rcases updateTrigger_of_triggered triggered sample.counts sample.ticks
      (lce.latchTrigger rawGrams isTrigger) with ⟨isTriggered, triggerCount, same⟩
    rw [isStep]
    refine Follows.congr ?_ same
    exact { follows with
      searching := fun none => by simp [isFound] at none }

theorem Follows.evaluate (idle : range.triggerGrams = 0 → detector = .start) (sample : Sample) :
    match judgeSample range sf sample.counts with
    | .error reason => lce.evaluateSample sample.counts sample.ticks = .error reason
    | .ok (sf, isTrigger) =>
      (detector.found = none → isTrigger = false → detector.run.length ≤ 1) →
      ∃ next, lce.evaluateSample sample.counts sample.ticks = .ok next ∧
        next.Follows stale range sf length (detector.step length (sample, isTrigger)) := by
  rcases follows.range_eq
  rcases follows.sf_eq
  by_cases noGrams : lce.range.triggerGrams = 0
  · have isStart := idle noGrams
    have isStep : detector.step length (sample, false) = detector := by
      rw [isStart]
      rfl
    rw [judgeSample, if_pos noGrams, evaluateSample, if_pos noGrams]
    intro _
    refine ⟨_, rfl, ?_⟩
    rw [isStep]
    have clears : lce.clearTriggered.detection = { lce with isTriggered := false }.detection :=
      releasePin_detection _
    refine Follows.congr ?_ clears
    exact { follows with
      searching := fun none => by
        rcases follows.searching none with ⟨untriggered, _, shorter, count, reports⟩
        exact ⟨untriggered, rfl, shorter, count, reports⟩ }
  have force := lce.forceTriggers_eq sample.counts noGrams
  rw [evaluateSample, if_neg noGrams]
  cases judged : judgeSample lce.range lce.sf sample.counts with
  | error reason =>
    rw [judged] at force
    dsimp only at force ⊢
    rw [force]
  | ok result =>
    rw [judged] at force
    rcases force with ⟨middle, judges, same⟩
    intro uninterrupted
    dsimp only
    rw [judges]
    have filtered : middle.Follows stale lce.range result.1 length detector := by
      refine Follows.congr ?_ same
      exact { follows with sf_eq := rfl }
    exact ⟨_, rfl, filtered.update sample _ result.2 uninterrupted⟩

end

/-! ## A session -/

theorem not_trigger_of_idle (noGrams : range.triggerGrams = 0)
    (judged : judgeSample range sf counts = .ok result) : result.2 = false := by
  rw [judgeSample, if_pos noGrams] at judged
  cases judged
  rfl

variable {sample : Sample}

/-- One sample of a homing endstop, which may be the one that homing starts with. -/
theorem Follows.reportSample
    (follows : (lce.saveSample sample.counts sample.ticks).Follows stale range sf length detector)
    (idle : range.triggerGrams = 0 → detector = .start) :
    match judgeSample range sf sample.counts with
    | .error reason => lce.reportSample sample.counts sample.ticks = .error reason
    | .ok (sf, isTrigger) =>
      (detector.found = none → isTrigger = false → detector.run.length ≤ 1) →
      ∃ next, lce.reportSample sample.counts sample.ticks = .ok next ∧
        next.Follows stale range sf length (detector.step length (sample, isTrigger)) := by
  rw [LoadCellEndstop.reportSample, follows.homing]
  exact (follows.congr (checkSafety_detection _ _)).evaluate idle sample

theorem Follows.reportSamples {samples : List Sample}
    (follows : ∀ sample, samples.head? = some sample →
      (lce.saveSample sample.counts sample.ticks).Follows stale range sf length detector)
    (outcome : samples = [] → lce.Outcome stale detector)
    (idle : range.triggerGrams = 0 → detector = .start)
    (uninterrupted : Uninterrupted range length sf detector samples) :
    match judge range sf samples with
    | .error reason => lce.reportSamples samples = .error reason
    | .ok judged => ∃ final, lce.reportSamples samples = .ok final ∧
        final.Outcome stale (judged.foldl (RunDetector.step length) detector) := by
  induction samples generalizing lce sf detector with
  | nil => exact ⟨lce, rfl, outcome rfl⟩
  | cons sample samples induction =>
    have one := (follows sample rfl).reportSample idle
    rw [judge, LoadCellEndstop.reportSamples]
    rw [Uninterrupted] at uninterrupted
    cases judged : judgeSample range sf sample.counts with
    | error reason =>
      rw [judged] at one
      rw [one]
    | ok result =>
      rw [judged] at one uninterrupted
      rcases one uninterrupted.1 with ⟨next, reported, nextFollows⟩
      have saved (later : Sample) :
          (next.saveSample later.counts later.ticks).detection = next.detection := by
        rw [saveSample]
        split
        · simp only [detection, nextFollows.homing]
        · rfl
      have rest := induction (fun later _ => nextFollows.congr (saved later))
        (fun _ => nextFollows.outcome)
        (fun noGrams => by
          rw [idle noGrams, not_trigger_of_idle noGrams judged]
          rfl)
        uninterrupted.2
      dsimp only
      rw [reported]
      cases judgedRest : judge range result.1 samples with
      | error | ok =>
        rw [judgedRest] at rest
        exact rest

structure Waits (lce : LoadCellEndstop) (stale : Int32) (range : EndstopRange) (sf : SosFilter)
    (clock : UInt32) (length : ℕ) : Prop where
  waiting : lce.isAwaitHoming = true
  notHoming : lce.isHoming = false
  untriggered : lce.isHomingTrigger = false
  range_eq : lce.range = range
  sf_eq : lce.sf = sf
  clock_eq : lce.homingClock = clock
  count_eq : lce.sampleCount.toNat = length
  full : lce.triggerCount = lce.sampleCount
  ticks_eq : lce.triggerTicks = 0
  stale_eq : lce.triggerSample = stale

theorem Waits.early (waits : lce.Waits stale range sf clock length)
    (early : timerIsBefore sample.ticks clock) :
    ∃ next, lce.reportSample sample.counts sample.ticks = .ok next ∧
      next.Waits stale range sf clock length ∧ next.isTriggered = false := by
  have saved : lce.saveSample sample.counts sample.ticks =
      { lce with
        lastSample := sample.counts
        lastSampleTicks := sample.ticks
        watchdogCount := 0 } := by
    rw [saveSample]
    rw [waits.clock_eq, early, if_neg (by simp)]
  rw [LoadCellEndstop.reportSample, saved]
  rw [waits.notHoming]
  refine ⟨_, rfl, ?_⟩
  rw [clearTriggered, releasePin]
  split <;> exact ⟨{ waits with notHoming := rfl }, rfl⟩

theorem Waits.begins (waits : lce.Waits stale range sf clock length) (positive : 0 < length)
    (clear : lce.isTriggered = false) (due : timerIsBefore sample.ticks clock = false) :
    (lce.saveSample sample.counts sample.ticks).Follows stale range sf length .start := by
  rw [saveSample]
  rw [waits.clock_eq, due, waits.waiting, if_pos (by decide)]
  exact
    { range_eq := waits.range_eq
      sf_eq := waits.sf_eq
      count_eq := waits.count_eq
      homing := rfl
      sample_eq := waits.stale_eq
      searching := fun _ => by
        refine ⟨waits.untriggered, clear, positive, ?_, waits.ticks_eq⟩
        change lce.triggerCount.toNat + 0 = length
        rw [waits.full, waits.count_eq, add_zero]
      found := nofun }

theorem Waits.reportSamples {samples : List Sample} (positive : 0 < length)
    (waits : lce.Waits stale range sf clock length)
    (clear : ∀ first, samples.head? = some first → lce.isTriggered →
      timerIsBefore first.ticks clock = true)
    (uninterrupted : Uninterrupted range length sf .start (homingSamples clock samples)) :
    match judge range sf (homingSamples clock samples) with
    | .error reason => lce.reportSamples samples = .error reason
    | .ok judged => ∃ final, lce.reportSamples samples = .ok final ∧
        final.Outcome stale (RunDetector.detect length judged) := by
  induction samples generalizing lce with
  | nil => exact ⟨lce, rfl, waits.untriggered, waits.ticks_eq, waits.stale_eq, nofun⟩
  | cons sample samples induction =>
    cases early : timerIsBefore sample.ticks clock with
    | true =>
      rcases waits.early early with ⟨next, reported, nextWaits, nextClear⟩
      have isRest : homingSamples clock (sample :: samples) = homingSamples clock samples := by
        simp [homingSamples, early]
      rw [isRest] at uninterrupted ⊢
      rw [LoadCellEndstop.reportSamples, reported]
      exact induction nextWaits (fun _ _ triggered => by simp [nextClear] at triggered)
        uninterrupted
    | false =>
      have isAll : homingSamples clock (sample :: samples) = sample :: samples := by
        simp [homingSamples, early]
      have isClear : lce.isTriggered = false := by
        by_contra triggered
        rw [Bool.not_eq_false] at triggered
        rw [clear sample rfl triggered] at early
        cases early
      rw [isAll] at uninterrupted ⊢
      apply Follows.reportSamples _ (fun none => by cases none) (fun _ => rfl) uninterrupted
      intro first isFirst
      cases isFirst
      exact waits.begins positive isClear early

end LoadCellEndstop

/-- A session that starts with a full counter and a clear trigger view, and in which no
sample interrupts a run of two or more triggering samples, depends on nothing else of what
was before: it triggers with the first run of `sample_count` triggering samples since the
homing clock, and reports the first sample of that run. Without a trigger it reports the time
of the run under way and the sample of the latest run, unless no sample triggers and an
earlier session has left one. -/
theorem session_independent (lce : LoadCellEndstop) (args : HomeArgs)
    (starts : args.errorReason ≠ 0) (counted : args.sampleCount.toUInt8 ≠ 0)
    (samples : List Sample) (full : lce.triggerCount = args.sampleCount.toUInt8)
    (clear : ∀ first, samples.head? = some first → lce.isTriggered = true →
      timerIsBefore first.ticks args.clock = true)
    (uninterrupted : Uninterrupted lce.range args.sampleCount.toUInt8.toNat
      lce.sf.resetFilterState .start (homingSamples args.clock samples))
    (fresh : lce.triggerSample = 0 ∨ ∀ judged,
      judge lce.range lce.sf.resetFilterState (homingSamples args.clock samples) = .ok judged →
      (RunDetector.detect args.sampleCount.toUInt8.toNat judged).latest.isSome) :
    match judge lce.range lce.sf.resetFilterState (homingSamples args.clock samples) with
    | .error reason =>
      (lce.commandLoadCellEndstopHome args).reportSamples samples = .error reason
    | .ok judged =>
      let detected := RunDetector.detect args.sampleCount.toUInt8.toNat judged
      ∃ final, (lce.commandLoadCellEndstopHome args).reportSamples samples = .ok final ∧
        final.isHomingTrigger = detected.found.isSome ∧
        final.triggerTicks =
          ((detected.found.getD detected.run).head?.map Sample.ticks).getD 0 ∧
        final.triggerSample = (detected.latest.map Sample.counts).getD 0 ∧
        ∀ run, detected.found = some run →
          run.length = args.sampleCount.toUInt8.toNat ∧
          (∃ before after, judged = before ++ RunDetector.positives run ++ after) ∧
          ∃ first rest, run = first :: rest ∧ final.triggerTicks = first.ticks ∧
            final.triggerSample = first.counts := by
  have positive : 0 < args.sampleCount.toUInt8.toNat := by
    rw [Nat.pos_iff_ne_zero]
    exact fun zero => counted (UInt8.toNat.inj zero)
  have viewKept : (lce.commandLoadCellEndstopHome args).isTriggered = lce.isTriggered := by
    rw [LoadCellEndstop.commandLoadCellEndstopHome]
    rw [if_neg starts]
  rw [← viewKept] at clear
  have waits : (lce.commandLoadCellEndstopHome args).Waits lce.triggerSample lce.range
      lce.sf.resetFilterState args.clock args.sampleCount.toUInt8.toNat := by
    rw [LoadCellEndstop.commandLoadCellEndstopHome, if_neg starts]
    exact ⟨rfl, rfl, rfl, rfl, rfl, rfl, rfl, full, rfl, rfl⟩
  have session := waits.reportSamples positive clear uninterrupted
  cases judges : judge lce.range lce.sf.resetFilterState (homingSamples args.clock samples) with
  | error reason =>
    rw [judges] at session
    exact session
  | ok judged =>
    rw [judges] at session
    rcases session with ⟨final, reported, triggers, reports, sample_eq, nonempty⟩
    refine ⟨final, reported, triggers, ?_, ?_, ?_⟩
    · revert reports
      cases (RunDetector.detect _ judged).found.getD _ with
      | nil => exact id
      | cons first rest => exact And.left
    · rw [sample_eq]
      rcases fresh with zero | isSome
      · rw [zero]
      · rcases Option.isSome_iff_exists.mp (isSome judged judges) with ⟨latest, isLatest⟩
        rw [isLatest]
        rfl
    · intro run isRun
      rcases (RunDetector.seen_detect _ _).found run isRun with ⟨length_eq, positives⟩
      rcases exists_cons_of_ne_nil (nonempty run isRun) with ⟨first, rest, rfl⟩
      rw [isRun] at reports
      exact ⟨length_eq, positives, first, rest, rfl, reports⟩

def rangedEndstop : LoadCellEndstop :=
  { plainEndstop with range := ⟨-1000000, 1000000, 0, 100, 3276800, 536870912⟩ }

def twoSamples : HomeArgs := ⟨0, 1, 2, 1000, 2, 50, 3⟩

theorem session_independent_two_samples :
    ∃ final, (rangedEndstop.commandLoadCellEndstopHome twoSamples).reportSamples
        [⟨0, 990⟩, ⟨0, 1000⟩, ⟨-300, 1010⟩, ⟨-300, 1020⟩] = .ok final ∧
      final.isHomingTrigger = true := by
  have session := session_independent rangedEndstop twoSamples (by decide) (by decide)
    [⟨0, 990⟩, ⟨0, 1000⟩, ⟨-300, 1010⟩, ⟨-300, 1020⟩] rfl
    (nofun)
    ⟨fun _ _ => Nat.zero_le 1, ⟨fun _ never => absurd never (by decide +kernel),
      ⟨fun _ never => absurd never (by decide +kernel), trivial⟩⟩⟩ (Or.inl rfl)
  rcases session with ⟨final, reported, triggers, _⟩
  exact ⟨final, reported, triggers⟩

def setRange : EndstopEvent := .setRange (-1000000) 1000000 0 100 536870912

def firstProbe : List EndstopEvent :=
  [.home ⟨0, 1, 2, 100, 2, 50, 3⟩, .sample (-300) 100, .sample (-300) 110,
    .home ⟨0, 0, 0, 0, 0, 0, 0⟩]

def secondProbe : List EndstopEvent := [.home twoSamples, .sample 0 1000, .sample (-300) 1010]

/-- The counter that an earlier session has used up lets a single sample trigger, and no
trigger time is reported. Without the earlier session, the sample is only the first one of
a run. -/
theorem session_depends_on_history :
    (runEvents LoadCellEndstop.step plainEndstop (setRange :: firstProbe ++ secondProbe)).map
        (fun final => (final.isHomingTrigger, final.triggerTicks)) = some (true, 0) ∧
      (runEvents LoadCellEndstop.step plainEndstop (setRange :: secondProbe)).map
        (fun final => (final.isHomingTrigger, final.triggerTicks)) = some (false, 1010) := by
  decide +kernel

end CentauriCarbon.LoadCell
