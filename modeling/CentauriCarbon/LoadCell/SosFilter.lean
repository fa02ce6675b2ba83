import Mathlib.Algebra.Order.Ring.Int

/-! # Second order sections filter

The filter of the load cell in fixed point arithmetic. Signed 32 bit sums wrap around.
-/

namespace CentauriCarbon.LoadCell

def maxSections : ℕ := 6

structure FilterSection where
  sos0 : Int32
  sos1 : Int32
  sos2 : Int32
  sos3 : Int32
  sos4 : Int32

structure SosCoefficients where
  nSections : UInt8
  isFilterReady : Bool
  filter : Fin maxSections → FilterSection

structure SosFilter where
  coefficients : SosCoefficients
  filterState : Fin maxSections → Int32 × Int32

inductive FilterShutdown where
  | fixedMulOverflow
  | notInitialized

def overflowsInt32 (value : ℤ) : Bool :=
  decide (2 ^ 31 - 1 < value) || decide (value < -2 ^ 31)

/-- Multiply a coefficient in Q1.30 by a value in Q16.15. -/
def fixedMul (coeff value : Int32) : Except FilterShutdown Int32 :=
  let result := (coeff.toInt * value.toInt + 2 ^ 29) >>> (30 : ℕ)
  if overflowsInt32 result then .error .fixedMulOverflow else .ok (Int32.ofInt result)

def filterSection (coefficients : FilterSection) (state : Int32 × Int32) (curVal : Int32) :
    Except FilterShutdown (Int32 × Int32 × Int32) := do
  let nextVal := (← fixedMul coefficients.sos0 curVal) + state.1
  let state0 := (← fixedMul coefficients.sos1 curVal) -
    (← fixedMul coefficients.sos3 nextVal) + state.2
  let state1 := (← fixedMul coefficients.sos2 curVal) -
    (← fixedMul coefficients.sos4 nextVal)
  return (nextVal, state0, state1)

def SosFilter.sosfilt (sf : SosFilter) (unfilteredValue : Int32) :
    Except FilterShutdown (SosFilter × Int32) :=
  if !sf.coefficients.isFilterReady then .error .notInitialized
  else
    ((List.finRange maxSections).take sf.coefficients.nSections.toNat).foldlM
      (fun (sf, curVal) place => do
        let (nextVal, state) ←
          filterSection (sf.coefficients.filter place) (sf.filterState place) curVal
        return ({ sf with filterState := Function.update sf.filterState place state }, nextVal))
      (sf, unfilteredValue)

def SosFilter.resetFilterState (sf : SosFilter) : SosFilter :=
  { sf with filterState := fun _ => (0, 0) }

end CentauriCarbon.LoadCell
