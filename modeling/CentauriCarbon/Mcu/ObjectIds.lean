import Mathlib.Algebra.Order.Ring.Int
import Mathlib.Data.List.Nodup
import CentauriCarbon.Foundation.EventRun

/-! # Object ids

The host numbers the objects of a micro-controller with `create_oid` and announces their number
with `allocate_oids`; the firmware keeps a table of that size. The counter is a static member of
the class `MCU`: all micro-controllers share it, and the constructor of each sets it to zero.
-/

namespace CentauriCarbon.Mcu

open Function List

structure OidCounter (Chip : Type) where
  oidCount : UInt32
  /-- The micro-controllers whose `MCU` object exists. -/
  mcus : List Chip
  /-- The oids that `create_oid` has returned for each of them. -/
  oids : Chip → List UInt32

inductive OidEvent (Chip : Type) where
  | construct (mcu : Chip)
  | createOid (mcu : Chip)

namespace OidCounter

variable {Chip : Type}

def start : OidCounter Chip where
  oidCount := 0
  mcus := []
  oids _ := []

/-- The count that `send_config` announces, to whichever micro-controller. -/
def allocateOidsCount (counter : OidCounter Chip) : UInt32 := counter.oidCount

/-- The ids of a micro-controller are different, the announced count covers them, and it fits
into the firmware's 8 bits if the micro-controller has not too many objects itself. -/
structure Right (counter : OidCounter Chip) (mcu : Chip) : Prop where
  different : (counter.oids mcu).Nodup
  covered : ∀ oid ∈ counter.oids mcu, oid < counter.allocateOidsCount
  fits : (counter.oids mcu).length ≤ 255 → counter.allocateOidsCount ≤ 255

instance decidableRight (counter : OidCounter Chip) (mcu : Chip) :
    Decidable (counter.Right mcu) :=
  decidable_of_iff
    ((counter.oids mcu).Nodup ∧
      (counter.oids mcu).all (· < counter.allocateOidsCount) ∧
        ((counter.oids mcu).length ≤ 255 → counter.allocateOidsCount ≤ 255))
    ⟨fun ⟨different, covered, fits⟩ => ⟨different, by simpa using covered, fits⟩,
      fun right => ⟨right.different, by simpa using right.covered, right.fits⟩⟩

section Count

variable {counter : OidCounter Chip}

theorem lt_succ_iff : counter.oidCount < counter.oidCount + 1 ↔
    counter.oidCount.toNat + 1 < 2 ^ 32 := by
  have one : (1 : UInt32).toNat = 1 := rfl
  rw [UInt32.lt_iff_toNat_lt, UInt32.toNat_add, one]
  omega

theorem succ_le_iff (noWrap : counter.oidCount.toNat + 1 < 2 ^ 32) :
    counter.oidCount + 1 ≤ 255 ↔ counter.oidCount.toNat + 1 ≤ 255 := by
  have next : (counter.oidCount + 1).toNat = counter.oidCount.toNat + 1 := Nat.mod_eq_of_lt noWrap
  rw [UInt32.le_iff_toNat_le, next]
  rfl

end Count

variable [DecidableEq Chip]

variable (counter : OidCounter Chip)

def construct (mcu : Chip) : OidCounter Chip where
  oidCount := 0
  mcus := mcu :: counter.mcus
  oids := update counter.oids mcu []

def createOid (mcu : Chip) : UInt32 × OidCounter Chip :=
  let oidCount := counter.oidCount + 1
  (oidCount - 1,
    { counter with oidCount, oids := update counter.oids mcu (counter.oids mcu ++ [oidCount - 1]) })

def step : OidEvent Chip → Option (OidCounter Chip)
  | .construct mcu => if mcu ∈ counter.mcus then none else some (counter.construct mcu)
  | .createOid mcu => if mcu ∈ counter.mcus then some (counter.createOid mcu).2 else none

/-! ## When the ids are right -/

/-- No micro-controller is constructed once another one has an id, and no id is handed out that
makes the common count too large for some micro-controller. -/
def Keeps : OidEvent Chip → Prop
  | .construct mcu => mcu ∉ counter.mcus → ∀ other ∈ counter.mcus, counter.oids other = []
  | .createOid mcu => mcu ∈ counter.mcus →
      counter.oidCount.toNat + 1 < 2 ^ 32 ∧
        ∀ other ∈ counter.mcus,
          (counter.oids other).length + (if other = mcu then 1 else 0) ≤ 255 →
            counter.oidCount.toNat + 1 ≤ 255

theorem construct_right_iff {counter : OidCounter Chip} (new : mcu ∉ counter.mcus) :
    (∀ other ∈ (counter.construct mcu).mcus, (counter.construct mcu).Right other) ↔
      ∀ other ∈ counter.mcus, counter.oids other = [] := by
  constructor
  · intro right other member
    have isRight := right other (mem_cons_of_mem _ member)
    have different : other ≠ mcu := fun same => new (same ▸ member)
    have covered := isRight.covered
    simp only [construct, allocateOidsCount, update_of_ne different] at covered
    apply eq_nil_iff_forall_not_mem.mpr
    intro oid isOid
    exact absurd (covered oid isOid) UInt32.not_lt_zero
  intro noOids other member
  have empty : (counter.construct mcu).oids other = [] := by
    by_cases same : other = mcu
    · simp [construct, same]
    · have old : other ∈ counter.mcus := by simpa [construct, same] using member
      simpa [construct, update_of_ne same] using noOids other old
  constructor
  · rw [empty]
    exact nodup_nil
  · simp [empty]
  · intro _
    change (0 : UInt32) ≤ 255
    decide

section CreateOid

variable {counter : OidCounter Chip}

theorem createOid_oids (other : Chip) : (counter.createOid mcu).2.oids other =
    counter.oids other ++ if other = mcu then [counter.oidCount] else [] := by
  rw [createOid, UInt32.add_sub_cancel]
  by_cases same : other = mcu
  · simp [same]
  · simp [same]

theorem createOid_length (other : Chip) : ((counter.createOid mcu).2.oids other).length =
    (counter.oids other).length + if other = mcu then 1 else 0 := by
  rw [createOid_oids, length_append]
  split <;> rfl

theorem createOid_allocateOidsCount :
    (counter.createOid mcu).2.allocateOidsCount = counter.oidCount + 1 := by
  rfl

theorem createOid_right_iff (right : ∀ other ∈ counter.mcus, counter.Right other)
    (constructed : mcu ∈ counter.mcus) :
    (∀ other ∈ (counter.createOid mcu).2.mcus, (counter.createOid mcu).2.Right other) ↔
      counter.Keeps (.createOid mcu) := by
  rw [Keeps, imp_iff_right constructed]
  constructor
  · intro next
    have covered := (next mcu constructed).covered
    rw [createOid_oids, if_pos rfl, createOid_allocateOidsCount] at covered
    have noWrap := lt_succ_iff.mp (covered counter.oidCount (by simp))
    refine ⟨noWrap, ?_⟩
    intro other member few
    have fits := (next other member).fits
    rw [createOid_length, createOid_allocateOidsCount] at fits
    exact (succ_le_iff noWrap).mp (fits few)
  rintro ⟨noWrap, few⟩ other member
  have before := right other member
  have larger := lt_succ_iff.mpr noWrap
  constructor
  · rw [createOid_oids]
    split
    · rw [← concat_eq_append]
      apply before.different.concat
      intro isOid
      exact absurd (before.covered _ isOid) (UInt32.lt_irrefl _)
    · rw [append_nil]
      exact before.different
  · rw [createOid_oids, createOid_allocateOidsCount]
    intro oid isOid
    rcases mem_append.mp isOid with old | new
    · exact UInt32.lt_trans (before.covered oid old) larger
    split at new
    · rw [mem_singleton.mp new]
      exact larger
    · cases new
  · rw [createOid_length, createOid_allocateOidsCount]
    intro isFew
    exact (succ_le_iff noWrap).mpr (few other member isFew)

end CreateOid

theorem keeps_iff {counter : OidCounter Chip} (event : OidEvent Chip)
    (right : ∀ mcu ∈ counter.mcus, counter.Right mcu) : counter.Keeps event ↔
      ∀ next, counter.step event = some next → ∀ mcu ∈ next.mcus, next.Right mcu := by
  cases event with
  | construct mcu =>
    rw [Keeps, step]
    by_cases constructed : mcu ∈ counter.mcus
    · simp [constructed]
    · rw [if_neg constructed]
      simp only [constructed, not_false_eq_true, forall_true_left, Option.some.injEq, forall_eq']
      exact (construct_right_iff constructed).symm
  | createOid mcu =>
    rw [step]
    by_cases constructed : mcu ∈ counter.mcus
    · rw [if_pos constructed, ← createOid_right_iff right constructed]
      simp
    · simp [Keeps, constructed]

/-- In every state of a run the ids of every micro-controller are right, exactly if each step
meets the condition. -/
theorem oids_unique_iff (events : List (OidEvent Chip)) :
    RunMeets step Keeps (start : OidCounter Chip) events ↔
      ∀ done final, done <+: events → runEvents step start done = some final →
        ∀ mcu ∈ final.mcus, final.Right mcu := by
  apply runMeets_iff
  · intro counter event right
    exact keeps_iff event right
  · nofun

/-- A micro-controller that has an id gets the same one again after another one has been
constructed; and a micro-controller with a single object is announced 256 of them. -/
theorem oid_handed_out_twice :
    (∃ final : OidCounter Nat,
      runEvents step start [.construct 0, .createOid 0, .construct 1, .createOid 0] =
          some final ∧
        final.oids 0 = [0, 0] ∧ ¬final.Right 0) ∧
    ∃ final : OidCounter Nat,
      runEvents step start ([.construct 0, .construct 1, .createOid 0] ++
          replicate 255 (.createOid 1)) = some final ∧
        final.oids 0 = [0] ∧ final.allocateOidsCount = 256 ∧ ¬final.Right 0 := by
  constructor
  · exact ⟨_, rfl, by decide, by decide⟩
  refine exists_of_observed (fun final => (final.oids 0, final.allocateOidsCount)) ([0], 256)
    (by decide +kernel) fun final ran seen => ?_
  rw [Prod.mk.injEq] at seen
  refine ⟨seen.1, seen.2, ?_⟩
  intro right
  have fits := right.fits
  rw [seen.1, seen.2] at fits
  exact absurd (fits (by decide)) (by decide)

end OidCounter

/-! ## The firmware -/

structure OidTable (ObjectType : Type) where
  allocated : Bool
  oidCount : UInt8
  types : List (Option ObjectType)
  isFinalized : Bool
  allocEnd : Nat
  dynmemEnd : Nat

namespace OidTable

variable {ObjectType : Type}

/-- `ALIGN` to the four bytes of a pointer. -/
def align (size : Nat) : Nat := (size + 3) / 4 * 4

def reset (dynmemStart dynmemEnd : Nat) : OidTable ObjectType :=
  ⟨false, 0, [], false, align dynmemStart, dynmemEnd⟩

variable (table : OidTable ObjectType)

variable {objects : List (UInt32 × ObjectType × UInt16)}

end OidTable

end CentauriCarbon.Mcu
