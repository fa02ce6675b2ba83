import Mathlib.Data.List.Induction
import Mathlib.Order.Bounds.Basic

/-! # The least value and the next one in one pass

A pass over numbered values keeps the least value with its number, and the least of the
other values. From these follows, for each number, the least value of all other numbers.
-/

namespace CentauriCarbon

open List

structure LeastTwo (Label Value : Type) where
  least : Value
  next : Value
  place : Option Label

namespace LeastTwo

variable {Label Value : Type} [LinearOrder Value]

def start (never : Value) : LeastTwo Label Value := ⟨never, never, none⟩

def step (found : LeastTwo Label Value) (entry : Label × Value) : LeastTwo Label Value :=
  if entry.2 < found.next then
    if entry.2 < found.least then ⟨entry.2, found.least, some entry.1⟩
    else { found with next := entry.2 }
  else found

def scan (never : Value) (entries : List (Label × Value)) : LeastTwo Label Value :=
  entries.foldl step (start never)

/-- The least value that does not belong to the label, or the label's own one if there is
no other. -/
def other [DecidableEq Label] (never : Value) (found : LeastTwo Label Value) (label : Label) :
    Value :=
  if found.place = some label then
    if found.next = never then found.least else found.next
  else found.least

inductive Knows (never : Value) : List (Label × Value) → LeastTwo Label Value → Prop where
  | empty : Knows never [] (start never)
  | found {entries : List (Label × Value)} {label : Label} {least next : Value}
      (atPlace : (label, least) ∈ entries) (least_le : ∀ entry ∈ entries, least ≤ entry.2)
      (next_le : ∀ entry ∈ entries, entry.1 ≠ label → next ≤ entry.2)
      (source : next = never ∧ entries = [(label, least)] ∨
        ∃ entry ∈ entries, entry.1 ≠ label ∧ entry.2 = next) :
      Knows never entries ⟨least, next, some label⟩

variable {entries : List (Label × Value)} {entry : Label × Value}

theorem forall_append {Entry : Type} {entries : List Entry} {entry : Entry} {Bound : Entry → Prop}
    (old : ∀ other ∈ entries, Bound other) (new : Bound entry) :
    ∀ other ∈ entries ++ [entry], Bound other :=
  forall_mem_append.mpr ⟨old, forall_mem_singleton.mpr new⟩

theorem Knows.step {never : Value} {found : LeastTwo Label Value}
    (knows : Knows never entries found) (fresh : entry.1 ∉ entries.map Prod.fst)
    (below : entry.2 < never) (allBelow : ∀ entry ∈ entries, entry.2 < never) :
    Knows never (entries ++ [entry]) (found.step entry) := by
  cases knows with
  | empty =>
    rw [LeastTwo.step, start]
    rw [if_pos below, if_pos below]
    apply Knows.found
    · simp
    · simp
    · simp
    · exact .inl ⟨rfl, by simp⟩
  | @found _ label least next atPlace least_le next_le source =>
    have different : label ≠ entry.1 := by
      intro same
      apply fresh
      rw [← same]
      exact mem_map_of_mem atPlace
    have least_le_next : least ≤ next := by
      rcases source with ⟨isNever, _⟩ | ⟨other, member, _, value⟩
      · rw [isNever]
        exact (allBelow _ atPlace).le
      · rw [← value]
        exact least_le other member
    rw [LeastTwo.step]
    split
    next beforeNext =>
      split
      next beforeLeast =>
        -- The new value is the least one; the old one comes next.
        apply Knows.found
        · simp
        · refine forall_append ?_ le_rfl
          exact fun other old => beforeLeast.le.trans (least_le other old)
        · refine forall_append ?_ fun notNew => absurd rfl notNew
          exact fun other old _ => least_le other old
        · exact .inr ⟨(label, least), mem_append_left _ atPlace, different, rfl⟩
      next notBeforeLeast =>
        apply Knows.found
        · exact mem_append_left _ atPlace
        · exact forall_append least_le (not_lt.mp notBeforeLeast)
        · refine forall_append ?_ fun _ => le_rfl
          exact fun other old notLabel => beforeNext.le.trans (next_le other old notLabel)
        · exact .inr ⟨entry, by simp, different.symm, rfl⟩
    next notBeforeNext =>
      have next_le_new : next ≤ entry.2 := not_lt.mp notBeforeNext
      apply Knows.found
      · exact mem_append_left _ atPlace
      · exact forall_append least_le (least_le_next.trans next_le_new)
      · exact forall_append next_le fun _ => next_le_new
      rcases source with ⟨isNever, _⟩ | ⟨other, member, notLabel, value⟩
      · rw [isNever] at next_le_new
        exact absurd below (not_lt.mpr next_le_new)
      · exact .inr ⟨other, mem_append_left _ member, notLabel, value⟩

theorem scan_knows (nodup : (entries.map Prod.fst).Nodup)
    (below : ∀ entry ∈ entries, entry.2 < never) : Knows never entries (scan never entries) := by
  induction entries using reverseRecOn with
  | nil => exact Knows.empty
  | append_singleton entries entry induction =>
    rw [map_append, map_singleton, nodup_append] at nodup
    rw [forall_mem_append] at below
    rw [scan, foldl_append]
    apply (induction nodup.1 below.1).step _ (below.2 entry (by simp)) below.1
    intro member
    exact nodup.2.2 entry.1 member entry.1 (by simp) rfl

/-- Each label gets the least value of the others, or its own one if it is alone. -/
theorem other_scan [DecidableEq Label] (nodup : (entries.map Prod.fst).Nodup)
    (below : ∀ entry ∈ entries, entry.2 < never) (member : entry ∈ entries) :
    entries = [entry] ∧ (scan never entries).other never entry.1 = entry.2 ∨
      IsLeast { value | ∃ other ∈ entries, other.1 ≠ entry.1 ∧ other.2 = value }
        ((scan never entries).other never entry.1) := by
  have knows := scan_knows nodup below
  cases result : scan never entries with
  | mk least next place =>
    rw [result] at knows
    cases knows with
    | empty => simp at member
    | @found _ label least next atPlace least_le next_le source =>
      rw [LeastTwo.other]
      by_cases own : label = entry.1
      · rw [if_pos (congrArg some own)]
        rcases source with ⟨isNever, alone⟩ | ⟨other, otherMember, notLabel, value⟩
        · rw [alone, mem_singleton] at member
          rw [if_pos isNever, alone, member]
          exact .inl ⟨rfl, rfl⟩
        have notNever : next ≠ never := by
          rw [← value]
          exact (below other otherMember).ne
        rw [if_neg notNever]
        rw [own] at next_le notLabel
        right
        refine ⟨⟨other, otherMember, notLabel, value⟩, ?_⟩
        rintro found ⟨another, anotherMember, notOwn, rfl⟩
        exact next_le another anotherMember notOwn
      · have isOther : some label ≠ some entry.1 := fun same => own (Option.some.inj same)
        rw [if_neg isOther]
        right
        refine ⟨⟨(label, least), atPlace, own, rfl⟩, ?_⟩
        rintro found ⟨another, anotherMember, _, rfl⟩
        exact least_le another anotherMember

end LeastTwo

end CentauriCarbon
