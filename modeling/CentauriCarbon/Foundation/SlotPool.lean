import Mathlib.Data.List.Perm.Basic
import Mathlib.Order.MinMax

/-! # Pools of slots

A pool holds, for each slot, the time at which it becomes free. Every use takes a slot
out at its free time and puts it back with a later one. If the uses start in order, no
sooner than their slots are free, then no more slots are occupied at any time than the
pool has.
-/

namespace CentauriCarbon.SlotPool

open List

variable {Time : Type}

inductive Exchanges : List Time → List (Time × Time) → List Time → Prop where
  | nil (pool : List Time) : Exchanges pool [] pool
  | cons {pool rest next final : List Time} {uses : List (Time × Time)} {taken returned : Time}
      (takes : pool.Perm (taken :: rest)) (puts : next.Perm (returned :: rest))
      (later : Exchanges next uses final) : Exchanges pool ((taken, returned) :: uses) final

theorem Exchanges.append {pool middle final : List Time} {left right : List (Time × Time)}
    (first : Exchanges pool left middle) (second : Exchanges middle right final) :
    Exchanges pool (left ++ right) final := by
  induction first with
  | nil pool => exact second
  | cons takes puts later induction => exact .cons takes puts (induction second)

variable {uses : List (Time × Time)} {pool final : List Time} {start finish : Nat → Time}

theorem Exchanges.perm (exchanges : Exchanges pool uses final) :
    (uses.map Prod.fst ++ final).Perm (uses.map Prod.snd ++ pool) := by
  induction exchanges with
  | nil pool => exact Perm.refl _
  | @cons pool rest next final uses taken returned takes puts later induction =>
    have swapped : (taken :: returned :: (uses.map Prod.snd ++ rest)).Perm
        (returned :: taken :: (uses.map Prod.snd ++ rest)) := Perm.swap _ _ _
    have putBack : (uses.map Prod.snd ++ next).Perm
        (returned :: (uses.map Prod.snd ++ rest)) :=
      (puts.append_left _).trans perm_middle
    have takenOut : (taken :: (uses.map Prod.snd ++ rest)).Perm
        (uses.map Prod.snd ++ pool) :=
      perm_middle.symm.trans (takes.symm.append_left _)
    exact (induction.cons taken).trans
      ((putBack.cons taken).trans (swapped.trans (takenOut.cons returned)))

theorem Exchanges.length (exchanges : Exchanges pool uses final) : final.length = pool.length := by
  have same := exchanges.perm.length_eq
  simp only [length_append, length_map] at same
  omega

theorem Exchanges.take (exchanges : Exchanges pool uses final) (count : Nat) :
    ∃ middle, Exchanges pool (uses.take count) middle := by
  induction exchanges generalizing count with
  | nil pool =>
    rw [take_nil]
    exact ⟨pool, .nil pool⟩
  | cons takes puts later induction =>
    cases count with
    | zero => exact ⟨_, .nil _⟩
    | succ count =>
      rcases induction count with ⟨middle, rest⟩
      exact ⟨middle, .cons takes puts rest⟩

variable [LinearOrder Time]

structure Timed (uses : List (Time × Time)) (start finish : Nat → Time) : Prop where
  free : ∀ index use, uses[index]? = some use → use.1 ≤ start index
  ends : ∀ index use, uses[index]? = some use → finish index ≤ max use.2 (start index)
  inOrder : ∀ earlier later, earlier ≤ later → later < uses.length → start earlier ≤ start later

def occupied (start finish : Nat → Time) (time : Time) (count : Nat) : Nat :=
  (range count).countP fun index => start index ≤ time ∧ time < finish index

theorem occupied_le_countP (timed : Timed uses start finish) (time : Time) (count : Nat)
    (within : count ≤ uses.length) : occupied start finish time count ≤
      ((uses.take count).map Prod.snd).countP (fun returned => time < returned) := by
  induction count with
  | zero => exact Nat.zero_le _
  | succ count induction =>
    have before := induction (by omega)
    have inside : count < uses.length := by omega
    have entry := getElem?_eq_getElem inside
    rw [occupied] at before ⊢
    rw [range_succ, countP_append, ← take_append_getElem inside, map_append, countP_append]
    apply Nat.add_le_add before
    rw [map_singleton, countP_singleton, countP_singleton]
    split
    case isTrue holds =>
      rw [decide_eq_true_iff] at holds
      have ends := lt_of_lt_of_le holds.2 (timed.ends count _ entry)
      rw [if_pos]
      rw [decide_eq_true_iff]
      exact (lt_max_iff.mp ends).resolve_right (not_lt.mpr holds.1)
    case isFalse => exact Nat.zero_le _

theorem Exchanges.occupied_le (exchanges : Exchanges pool uses final)
    (timed : Timed uses start finish) (time : Time) (count : Nat) (within : count ≤ uses.length) :
    occupied start finish time count ≤ pool.length := by
  induction count with
  | zero => exact Nat.zero_le _
  | succ count induction =>
    by_cases started : start count ≤ time
    · -- all free times taken so far have passed, so what is not over yet is in the pool
      rcases exchanges.take (count + 1) with ⟨middle, soFar⟩
      have passed : ((uses.take (count + 1)).map Prod.fst).countP
          (fun taken => time < taken) = 0 := by
        apply countP_eq_zero.mpr
        intro taken member
        rcases mem_map.mp member with ⟨use, used, rfl⟩
        rcases mem_take_iff_getElem.mp used with ⟨index, inside, rfl⟩
        have entry := getElem?_eq_getElem (show index < uses.length by omega)
        have free := timed.free index _ entry
        have order := timed.inOrder index count (by omega) (by omega)
        rw [decide_eq_true_iff]
        exact not_lt.mpr (free.trans (order.trans started))
      have same := soFar.perm.countP_eq (fun returned => decide (time < returned))
      rw [countP_append, countP_append, passed] at same
      have bound := occupied_le_countP timed time (count + 1) within
      have most := countP_le_length (p := fun returned => decide (time < returned)) (l := middle)
      have length := soFar.length
      omega
    · have unchanged : occupied start finish time (count + 1) =
          occupied start finish time count := by
        rw [occupied, occupied, range_succ, countP_append, countP_singleton, if_neg]
        · exact Nat.add_zero _
        · rw [decide_eq_true_iff]
          exact fun holds => started holds.1
      rw [unchanged]
      exact induction (by omega)

end CentauriCarbon.SlotPool
