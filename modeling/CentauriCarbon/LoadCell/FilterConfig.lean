import CentauriCarbon.Foundation.EventRun
import CentauriCarbon.LoadCell.SosFilter

/-! # Configuration of the filter -/

namespace CentauriCarbon.LoadCell

open Function List

/-- The filter with the indices of the sections that were written since its last reset. -/
structure FilterConfig extends SosCoefficients where
  filterState : Fin maxSections → Int32 × Int32
  lastSectionIdx : Int8
  written : List ℕ

inductive FilterCommand where
  | configFilterSection (nSections sectionIdx : UInt8) (sos : FilterSection)
  | sosfilt (value : Int32)

namespace FilterConfig

variable (config : FilterConfig) (nSections sectionIdx : UInt8) (sos : FilterSection)

def resetFilter : Except String FilterConfig :=
  if nSections.toNat > maxSections then .error "sos_filter: too many filter sections"
  else .ok { config with nSections, lastSectionIdx := -1, isFilterReady := false, written := [] }

/-- A write behind the array is recorded, but not what it destroys. -/
def writeSection : FilterConfig :=
  { config with
    filter :=
      if inside : sectionIdx.toNat < maxSections then update config.filter ⟨_, inside⟩ sos
      else config.filter
    lastSectionIdx := sectionIdx.toInt8
    written := config.written ++ [sectionIdx.toNat] }

def checkReady : FilterConfig :=
  { config with
    isFilterReady := config.isFilterReady ||
      config.lastSectionIdx.toInt = (config.nSections.toNat : ℤ) - 1 }

def commandConfigFilterSection : Except String FilterConfig := do
  let config ←
    if sectionIdx = 0 then config.resetFilter nSections
    else if nSections ≠ config.nSections then .error "Filter size mismatch"
    else if (sectionIdx.toNat : ℤ) ≠ config.lastSectionIdx.toInt + 1 then
      .error "Filter section out of order"
    else .ok config
  return (if nSections > 0 then config.writeSection sectionIdx sos else config).checkReady

def step : FilterCommand → Option FilterConfig
  | .configFilterSection nSections sectionIdx sos =>
    (config.commandConfigFilterSection nSections sectionIdx sos).toOption
  | .sosfilt value =>
    ((⟨config.toSosCoefficients, config.filterState⟩ : SosFilter).sosfilt value).toOption.map
      fun (sf, _) => { config with filterState := sf.filterState }

def commandConfigSosFilter : FilterConfig :=
  ⟨⟨0, false, fun _ => ⟨0, 0, 0, 0, 0⟩⟩, fun _ => (0, 0), -1, []⟩

/-- The sections written are the first ones, each written once, and a filter that is ready has
them all. -/
structure Configured : Prop where
  written_eq : config.written = range config.written.length
  last_eq : config.lastSectionIdx.toInt = config.written.length - 1
  written_le : config.written.length ≤ config.nSections.toNat
  sections_le : config.nSections.toNat ≤ maxSections
  complete : config.isFilterReady = true → config.written = range config.nSections.toNat

/-- A command that is taken for the next section is for a section of the filter. -/
def StaysInside (config : FilterConfig) : FilterCommand → Prop
  | .configFilterSection nSections sectionIdx _ =>
    sectionIdx ≠ 0 → nSections = config.nSections →
      (sectionIdx.toNat : ℤ) = config.lastSectionIdx.toInt + 1 → sectionIdx < nSections
  | .sosfilt _ => True

variable {config nSections sectionIdx sos}

theorem configured_writeSection (written_eq : config.written = range sectionIdx.toNat)
    (inside : sectionIdx < config.nSections) (sections_le : config.nSections.toNat ≤ maxSections)
    (unready : config.isFilterReady = false) :
    (config.writeSection sectionIdx sos).checkReady.Configured := by
  have below : sectionIdx.toNat < config.nSections.toNat := inside
  have last_eq : sectionIdx.toInt8.toInt = sectionIdx.toNat := by
    have all : ∀ number < maxSections, (UInt8.ofNat number).toInt8.toInt = number := by decide
    have this := all sectionIdx.toNat (below.trans_le sections_le)
    rwa [UInt8.ofNat_toNat] at this
  have written : (config.writeSection sectionIdx sos).checkReady.written =
      range (sectionIdx.toNat + 1) := by
    rw [range_succ, ← written_eq]
    rfl
  have count := congrArg length written
  rw [length_range] at count
  refine ⟨by rw [written, length_range], ?_, count ▸ below, sections_le, fun ready => ?_⟩
  · rw [count, Nat.cast_succ, add_sub_cancel_right]
    exact last_eq
  have isLast : sectionIdx.toInt8.toInt = (config.nSections.toNat : ℤ) - 1 := by
    simpa [checkReady, writeSection, unready] using ready
  rw [written]
  exact congrArg range (show _ = config.nSections.toNat by omega)

theorem step_first {next : FilterConfig}
    (stepped : config.step (.configFilterSection nSections 0 sos) = some next) :
    next.Configured := by
  have reset := eq_ok_of_toOption stepped
  rw [commandConfigFilterSection, if_pos rfl, resetFilter] at reset
  split at reset
  · cases reset
  next few =>
    cases reset
    by_cases positive : nSections > 0
    · rw [if_pos positive]
      exact configured_writeSection rfl positive (Nat.not_lt.mp few) rfl
    · have empty : nSections = 0 := by simpa using positive
      subst empty
      exact ⟨rfl, rfl, Nat.zero_le _, Nat.zero_le _, fun _ => rfl⟩

theorem step_later (later : sectionIdx ≠ 0) :
    config.step (.configFilterSection nSections sectionIdx sos) =
      if nSections = config.nSections ∧
          (sectionIdx.toNat : ℤ) = config.lastSectionIdx.toInt + 1 then
        some (if nSections > 0 then config.writeSection sectionIdx sos else config).checkReady
      else none := by
  rw [step, commandConfigFilterSection, if_neg later]
  by_cases same : nSections = config.nSections
  · by_cases inOrder : (sectionIdx.toNat : ℤ) = config.lastSectionIdx.toInt + 1
    · simp [same, inOrder, Except.toOption]
    · simp [same, inOrder, Except.toOption]
  · simp [same, Except.toOption]

theorem staysInside_iff (configured : config.Configured) (command : FilterCommand) :
    config.StaysInside command ↔ ∀ next, config.step command = some next → next.Configured := by
  cases command with
  | sosfilt value =>
    refine iff_of_true trivial fun next stepped => ?_
    rcases Option.map_eq_some_iff.mp stepped with ⟨filtered, -, rfl⟩
    exact { configured with }
  | configFilterSection nSections sectionIdx sos =>
    by_cases first : sectionIdx = 0
    · subst first
      exact iff_of_true (absurd rfl) fun _ => step_first
    rw [step_later first]
    split
    next taken =>
      rcases taken with ⟨rfl, inOrder⟩
      have index : sectionIdx.toNat = config.written.length := by
        have last_eq := configured.last_eq
        omega
      have positive : config.nSections > 0 := by
        have nonzero : sectionIdx.toNat ≠ 0 := fun zero => first (UInt8.toNat_inj.mp zero)
        exact lt_of_lt_of_le (Nat.pos_of_ne_zero nonzero) (index ▸ configured.written_le)
      rw [if_pos positive]
      constructor
      · rintro inside _ ⟨⟩
        have below := inside first rfl inOrder
        refine configured_writeSection (index ▸ configured.written_eq) below
          configured.sections_le ?_
        -- A filter that is ready has no section left to be written.
        by_contra ready
        have count := congrArg length (configured.complete (by simpa using ready))
        rw [length_range, ← index] at count
        exact absurd count (Nat.ne_of_lt below)
      · intro kept _ _ _
        have written_le := (kept _ rfl).written_le
        rw [checkReady, writeSection, length_append, ← index] at written_le
        exact written_le
    next refused => exact iff_of_true (fun _ same inOrder => absurd ⟨same, inOrder⟩ refused) nofun

/-- The sections of a filter are complete and in bounds in every state of a run exactly if no
command is taken for a section behind the last one. -/
theorem filter_configured_iff (commands : List FilterCommand) :
    (∀ done final, done <+: commands →
      runEvents step commandConfigSosFilter done = some final → final.Configured) ↔
      RunMeets step StaysInside commandConfigSosFilter commands := by
  have initially : commandConfigSosFilter.Configured :=
    ⟨rfl, rfl, Nat.zero_le _, Nat.zero_le _, nofun⟩
  exact (runMeets_iff (fun _ command configured => staysInside_iff configured command)
    initially).symm

theorem section_written_behind_filter :
    (runEvents step commandConfigSosFilter ((range 7).map fun index =>
        .configFilterSection 6 (.ofNat index) ⟨1, 0, 0, 0, 0⟩)).map
      (fun final => (final.written, final.isFilterReady)) = some ([0, 1, 2, 3, 4, 5, 6], true) := by
  decide +kernel

end FilterConfig

end CentauriCarbon.LoadCell
