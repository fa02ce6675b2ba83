import CentauriCarbon.Foundation.EventRun
import Mathlib.Tactic.NormNum

/-! # The flush delay of the toolhead

The delay covers the scan times of the step generation filters.
-/

namespace CentauriCarbon.Motion

def sdsCheckTime : ℚ := 1 / 1000

/-- The fields `kin_flush_times` and `kin_flush_delay` of the toolhead, with the delay each
source has in force (what it passes as `old_delay` at its next call). -/
structure ScanTimes (Source : Type) where
  kinFlushTimes : List ℚ
  kinFlushDelay : ℚ
  inForce : Source → ℚ

namespace ScanTimes

def start : ScanTimes Source := ⟨[], sdsCheckTime, fun _ => 0⟩

def withoutOld (kinFlushTimes : List ℚ) (oldDelay : ℚ) : List ℚ :=
  if oldDelay ≠ 0 then kinFlushTimes.erase oldDelay else kinFlushTimes

def withNew (kinFlushTimes : List ℚ) (delay : ℚ) : List ℚ :=
  if delay ≠ 0 then kinFlushTimes ++ [delay] else kinFlushTimes

/-- The call of a source with its new delay. On an empty list `max_element` returns the end
iterator, and reading through it is undefined. -/
def noteStepGenerationScanTime [DecidableEq Source] (times : ScanTimes Source)
    (call : Source × ℚ) : Option (ScanTimes Source) :=
  let kinFlushTimes := withNew (withoutOld times.kinFlushTimes (times.inForce call.1)) call.2
  kinFlushTimes.max?.map fun newDelay =>
    ⟨kinFlushTimes, max newDelay sdsCheckTime, Function.update times.inForce call.1 call.2⟩

/-- The delay is the maximum of `SDS_CHECK_TIME` and the delays in force. -/
def Covers (times : ScanTimes Source) : Prop :=
  IsGreatest (insert sdsCheckTime (Set.range times.inForce)) times.kinFlushDelay

/-- Some source has a filter switched on after the call. -/
def LeavesOne [DecidableEq Source] (times : ScanTimes Source) (call : Source × ℚ) : Prop :=
  ∃ source, Function.update times.inForce call.1 call.2 source ≠ 0

/-- The unlabelled list has one entry for each source with a delay in force. -/
def Lists (delays : List ℚ) (inForce : Source → ℚ) : Prop :=
  ∃ sources : List Source, sources.Nodup ∧ (∀ source, source ∈ sources ↔ inForce source ≠ 0) ∧
    delays.Perm (sources.map inForce)

variable {inForce : Source → ℚ} {times : ScanTimes Source}

theorem Lists.mem_iff (lists : Lists delays inForce) :
    delay ∈ delays ↔ ∃ source, inForce source ≠ 0 ∧ inForce source = delay := by
  rcases lists with ⟨sources, _, active, listed⟩
  rw [listed.mem_iff, List.mem_map]
  simp only [active]

theorem Lists.greatest (lists : Lists delays inForce)
    (greatest : delays.max? = some newDelay) :
    IsGreatest (insert sdsCheckTime (Set.range inForce)) (max newDelay sdsCheckTime) := by
  rcases List.max?_eq_some_iff.mp greatest with ⟨member, largest⟩
  constructor
  · rcases max_choice newDelay sdsCheckTime with chosen | chosen
    · rcases lists.mem_iff.mp member with ⟨source, _, equal⟩
      exact .inr ⟨source, by rw [equal, chosen]⟩
    · exact .inl chosen
  rintro _ (rfl | ⟨source, rfl⟩)
  · exact le_max_right ..
  by_cases off : inForce source = 0
  · rw [off]
    exact le_max_of_le_right (by norm_num [sdsCheckTime])
  · exact le_max_of_le_left (largest _ (lists.mem_iff.mpr ⟨source, off, rfl⟩))

variable [DecidableEq Source]

theorem map_update {sources : List Source} (absent : source ∉ sources) :
    sources.map (Function.update inForce source delay) = sources.map inForce := by
  refine List.map_congr_left fun other member => Function.update_of_ne ?_ delay inForce
  rintro rfl
  exact absent member

theorem Lists.withoutOld (lists : Lists delays inForce) (source : Source) :
    Lists (withoutOld delays (inForce source)) (Function.update inForce source 0) := by
  rw [ScanTimes.withoutOld]
  split
  next on =>
    rcases lists with ⟨sources, distinct, active, listed⟩
    have absent : source ∉ sources.erase source := distinct.not_mem_erase
    refine ⟨sources.erase source, distinct.erase source, fun other => ?_, ?_⟩
    · rw [distinct.mem_erase_iff, active, Function.update_apply]
      grind
    -- The entry taken out is the source's own or an equal one of another source.
    rw [map_update absent]
    have split := (List.perm_cons_erase ((active source).mpr on)).map inForce
    simpa using (listed.trans split).erase (inForce source)
  next off =>
    rw [not_not] at off
    rwa [Function.update_eq_self_iff.mpr off.symm]

theorem Lists.withNew (lists : Lists delays inForce) (off : inForce source = 0) :
    Lists (withNew delays delay) (Function.update inForce source delay) := by
  rw [ScanTimes.withNew]
  split
  next on =>
    rcases lists with ⟨sources, distinct, active, listed⟩
    have absent : source ∉ sources := fun member => (active source).mp member off
    refine ⟨source :: sources, List.nodup_cons.mpr ⟨absent, distinct⟩, fun other => ?_, ?_⟩
    · rw [List.mem_cons, active, Function.update_apply]
      grind
    rw [List.map_cons, map_update absent, Function.update_self]
    exact (List.perm_append_singleton delay delays).trans (listed.cons delay)
  next zero =>
    rw [not_not] at zero
    rwa [zero, Function.update_eq_self_iff.mpr off.symm]

theorem Lists.call (lists : Lists times.kinFlushTimes times.inForce) (call : Source × ℚ) :
    Lists (ScanTimes.withNew (ScanTimes.withoutOld times.kinFlushTimes (times.inForce call.1))
      call.2) (Function.update times.inForce call.1 call.2) := by
  rw [← Function.update_idem 0]
  exact (lists.withoutOld call.1).withNew (Function.update_self ..)

theorem leavesOne_iff (lists : Lists times.kinFlushTimes times.inForce) (call : Source × ℚ) :
    times.LeavesOne call ↔
      ∃ next, times.noteStepGenerationScanTime call = some next ∧ next.Covers := by
  have after := lists.call call
  rw [noteStepGenerationScanTime]
  generalize ScanTimes.withNew _ _ = delays at after ⊢
  cases greatest : delays.max? with
  | none =>
    cases List.max?_eq_none_iff.mp greatest
    have none_on : ¬ times.LeavesOne call := fun ⟨source, on⟩ =>
      List.not_mem_nil (after.mem_iff.mpr ⟨source, on, rfl⟩)
    simp [none_on]
  | some newDelay =>
    rcases after.mem_iff.mp (List.max?_mem greatest) with ⟨source, on, _⟩
    exact iff_of_true ⟨source, on⟩ ⟨_, rfl, after.greatest greatest⟩

/-- After each call of a history the flush delay covers every filter exactly if each call
leaves some filter switched on. -/
theorem flush_delay_covers_iff (calls : List (Source × ℚ)) :
    (∀ done, done <+: calls → ∃ times : ScanTimes Source,
      runEvents noteStepGenerationScanTime start done = some times ∧ times.Covers) ↔
      RunMeets noteStepGenerationScanTime LeavesOne start calls := by
  refine (runMeets_iff_defined ?_ (fun times call lists _ => leavesOne_iff lists call)
    ⟨[], List.nodup_nil, by simp [start], .nil⟩ ?_).symm
  · intro times call next lists noted
    rcases Option.map_eq_some_iff.mp noted with ⟨_, _, rfl⟩
    exact lists.call call
  · refine ⟨.inl rfl, ?_⟩
    rintro _ (rfl | ⟨_, rfl⟩)
    · exact le_rfl
    · norm_num [start, sdsCheckTime]

/-- Pressure advance is switched on and off again: the list is empty at the maximum. -/
theorem last_filter_switched_off :
    (runEvents noteStepGenerationScanTime (start : ScanTimes Unit) [((), 1 / 50)]).isSome ∧
      runEvents noteStepGenerationScanTime (start : ScanTimes Unit) [((), 1 / 50), ((), 0)] =
        none := by
  decide +kernel

end ScanTimes

end CentauriCarbon.Motion
