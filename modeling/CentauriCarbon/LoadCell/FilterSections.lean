import CentauriCarbon.Foundation.EventRun
import CentauriCarbon.LoadCell.SosFilter

/-! # Sections of the filter

What the 32 bit sums of the sections are worth, and how the sections are written.
-/

namespace CentauriCarbon.LoadCell

open Function

/-- The body of the loop of `sosfilt`. -/
def sectionStep (filtered : SosFilter × Int32) (place : Fin maxSections) :
    Except FilterShutdown (SosFilter × Int32) := do
  let (sf, curVal) := filtered
  let (nextVal, state) ← filterSection (sf.coefficients.filter place) (sf.filterState place) curVal
  return ({ sf with filterState := update sf.filterState place state }, nextVal)

def sectionStep? (filtered : SosFilter × Int32) (place : Fin maxSections) :
    Option (SosFilter × Int32) :=
  (sectionStep filtered place).toOption

def SosFilter.places (sf : SosFilter) : List (Fin maxSections) :=
  (List.finRange maxSections).take sf.coefficients.nSections.toNat

theorem runEvents_of_sosfilt (filtered : sf.sosfilt value = .ok final) :
    runEvents sectionStep? (sf, value) sf.places = some final := by
  rw [SosFilter.sosfilt] at filtered
  split at filtered
  · cases filtered
  · exact runEvents_of_foldlM filtered

theorem sectionStep?_eq_some (stepped : sectionStep? filtered place = some next) :
    ∃ state, filterSection (filtered.1.coefficients.filter place) (filtered.1.filterState place)
        filtered.2 = .ok (next.2, state) ∧
      next.1 = { filtered.1 with filterState := update filtered.1.filterState place state } := by
  rw [sectionStep?, sectionStep] at stepped
  cases ran : filterSection (filtered.1.coefficients.filter place) (filtered.1.filterState place)
      filtered.2 with
  | error => simp [ran, bind, Except.bind, Except.toOption] at stepped
  | ok values =>
    simp only [ran, bind, Except.bind] at stepped
    cases stepped
    exact ⟨values.2, rfl, rfl⟩

/-! ## Exact values -/

def exactMul (coeff : Int32) (value : ℤ) : ℤ := (coeff.toInt * value + 2 ^ 29) >>> (30 : ℕ)

def exactSection (coefficients : FilterSection) (state : ℤ × ℤ) (curVal : ℤ) : ℤ × ℤ × ℤ :=
  let nextVal := exactMul coefficients.sos0 curVal + state.1
  (nextVal, exactMul coefficients.sos1 curVal - exactMul coefficients.sos3 nextVal + state.2,
    exactMul coefficients.sos2 curVal - exactMul coefficients.sos4 nextVal)

/-- The filter in unbounded integers, with the value that goes into the next section. -/
structure ExactFilter where
  filter : Fin maxSections → FilterSection
  filterState : Fin maxSections → ℤ × ℤ
  curVal : ℤ

def exactStep (exact : ExactFilter) (place : Fin maxSections) : ExactFilter :=
  let (nextVal, state) := exactSection (exact.filter place) (exact.filterState place) exact.curVal
  ⟨exact.filter, update exact.filterState place state, nextVal⟩

def toInts (state : Int32 × Int32) : ℤ × ℤ := (state.1.toInt, state.2.toInt)

def exactOf (filtered : SosFilter × Int32) : ExactFilter :=
  ⟨filtered.1.coefficients.filter, fun place => toInts (filtered.1.filterState place),
    filtered.2.toInt⟩

def SumsFit (sums : ℤ × ℤ × ℤ) : Prop :=
  overflowsInt32 sums.1 = false ∧ overflowsInt32 sums.2.1 = false ∧ overflowsInt32 sums.2.2 = false

instance : Decidable (SumsFit sums) := inferInstanceAs (Decidable (_ ∧ _ ∧ _))

/-- The sums of a section fit, unless one of its products shuts the micro-controller down. -/
def SectionFits (filtered : SosFilter × Int32) (place : Fin maxSections) : Prop :=
  (sectionStep? filtered place).isSome →
    SumsFit (exactSection (filtered.1.coefficients.filter place)
      (toInts (filtered.1.filterState place)) filtered.2.toInt)

instance : Decidable (SectionFits filtered place) := inferInstanceAs (Decidable (_ → _))

theorem toInt_ofInt_of_fits (fits : overflowsInt32 value = false) :
    (Int32.ofInt value).toInt = value := by
  simp only [overflowsInt32, Bool.or_eq_false_iff, decide_eq_false_iff_not] at fits
  exact Int32.toInt_ofInt_of_le (by omega) (by omega)

theorem eq_ok_of_fixedMul_bind (ran : (fixedMul coeff value >>= next) = .ok result) :
    next (.ofInt (exactMul coeff value.toInt)) = .ok result := by
  rw [fixedMul] at ran
  split at ran
  · cases ran
  · exact ran

theorem filterSection_exact
    (ran : filterSection coefficients state curVal = .ok (nextVal, next))
    (fits : SumsFit (exactSection coefficients (toInts state) curVal.toInt)) :
    exactSection coefficients (toInts state) curVal.toInt = (nextVal.toInt, toInts next) := by
  have sum (value : ℤ) (x : Int32) : Int32.ofInt value + x = .ofInt (value + x.toInt) := by
    rw [Int32.ofInt_add, Int32.ofInt_toInt]
  replace ran := eq_ok_of_fixedMul_bind ran
  replace ran := eq_ok_of_fixedMul_bind (eq_ok_of_fixedMul_bind ran)
  replace ran := eq_ok_of_fixedMul_bind (eq_ok_of_fixedMul_bind ran)
  cases ran
  have value : (Int32.ofInt (exactMul coefficients.sos0 curVal.toInt) + state.1).toInt =
      (exactSection coefficients (toInts state) curVal.toInt).1 := by
    rw [sum]
    exact toInt_ofInt_of_fits fits.1
  -- The products of the second and third sum take the value as it was stored.
  rw [toInts, value, ← Int32.ofInt_sub, ← Int32.ofInt_sub, sum]
  exact Prod.ext rfl
    (Prod.ext (toInt_ofInt_of_fits fits.2.1).symm (toInt_ofInt_of_fits fits.2.2).symm)

theorem sectionStep?_exact (stepped : sectionStep? filtered place = some next)
    (fits : SectionFits filtered place) : exactStep (exactOf filtered) place = exactOf next := by
  have sums := fits (Option.isSome_of_eq_some stepped)
  rcases sectionStep?_eq_some stepped with ⟨state, ran, rest⟩
  unfold exactStep exactOf
  dsimp only
  rw [filterSection_exact ran sums, rest]
  congr 1
  exact (comp_update toInts _ _ _).symm

theorem sections_exact (fits : RunMeets sectionStep? SectionFits filtered places)
    (ran : runEvents sectionStep? filtered places = some final) :
    places.foldl exactStep (exactOf filtered) = exactOf final := by
  induction places generalizing filtered with
  | nil =>
    cases ran
    rfl
  | cons place places induction =>
    rcases runEvents_cons_eq_some.mp ran with ⟨next, stepped, ran⟩
    rcases fits with ⟨first, fits⟩
    rw [stepped] at fits
    rw [List.foldl_cons, sectionStep?_exact stepped first]
    exact induction fits ran

/-- All the sums of one call of `sosfilt`, as far as it comes, are in the range of 32 bits. -/
def CallFits (sf : SosFilter) (value : Int32) : Prop :=
  RunMeets sectionStep? SectionFits (sf, value) sf.places

instance : Decidable (CallFits sf value) := inferInstanceAs (Decidable (RunMeets _ _ _ _))

/-- What the calls return and store is what the filter computes in unbounded integers, until
the micro-controller shuts down. -/
def ExactUntilShutdown : SosFilter → ExactFilter → List Int32 → Prop
  | _, _, [] => True
  | sf, exact, value :: values =>
    match sf.sosfilt value with
    | .error _ => True
    | .ok (next, out) =>
      let exactNext := sf.places.foldl exactStep { exact with curVal := value.toInt }
      exactOf (next, out) = exactNext ∧ ExactUntilShutdown next exactNext values

def sosfilt? (sf : SosFilter) (value : Int32) : Option SosFilter :=
  (sf.sosfilt value).toOption.map Prod.fst

/-- A filter whose sums all fit is exact for every sequence of values. -/
theorem filter_exact_of_fits (sf : SosFilter) (values : List Int32) (start : Int32)
    (fits : RunMeets sosfilt? CallFits sf values) :
    ExactUntilShutdown sf (exactOf (sf, start)) values := by
  induction values generalizing sf start with
  | nil => trivial
  | cons value values induction =>
    rcases fits with ⟨first, fits⟩
    rw [ExactUntilShutdown]
    cases filtered : sf.sosfilt value with
    | error => trivial
    | ok final =>
      rw [sosfilt?, filtered] at fits
      have exact := sections_exact first (runEvents_of_sosfilt filtered)
      refine ⟨exact.symm, ?_⟩
      change ExactUntilShutdown final.1 (sf.places.foldl exactStep (exactOf (sf, value))) values
      rw [exact]
      exact induction final.1 final.2 fits

/-- A filter of one section that passes its input on, with a value left in its state. -/
def passingFilter (state : Int32) : SosFilter :=
  ⟨⟨1, true, fun _ => ⟨2 ^ 30, 0, 0, 0, 0⟩⟩, fun _ => (state, 0)⟩

theorem filter_exact_passing :
    RunMeets sosfilt? CallFits (passingFilter 5) [1, 2] ∧
      ExactUntilShutdown (passingFilter 5) (exactOf (passingFilter 5, 0)) [1, 2] := by
  have fits : RunMeets sosfilt? CallFits (passingFilter 5) [1, 2] := by decide +kernel
  exact ⟨fits, filter_exact_of_fits (passingFilter 5) [1, 2] 0 fits⟩

theorem filter_sum_wraps :
    ((passingFilter 2147483647).sosfilt 1).toOption.map Prod.snd = some (-2147483648) ∧
      ¬ ExactUntilShutdown (passingFilter 2147483647) (exactOf (passingFilter 2147483647, 0))
        [1] := by
  refine ⟨by decide +kernel, ?_⟩
  rintro ⟨same, -⟩
  exact absurd (congrArg ExactFilter.curVal same) (by decide +kernel)

end CentauriCarbon.LoadCell
