import Mathlib.Data.List.Basic

/-! # Chains of joined segments

A path is cut into segments, one for each item of a list. A segment has a value where it
is entered and where it is left; consecutive segments agree on the value between them.
-/

namespace CentauriCarbon

variable {Item Segment Value : Type}

/-- The value at which the segments are entered; `final` if there are none. -/
def entryOf (entry : Segment → Value) (final : Value) : List Segment → Value
  | [] => final
  | segment :: _ => entry segment

@[simp] theorem entryOf_nil (entry : Segment → Value) (final : Value) :
    entryOf entry final [] = final := rfl

@[simp] theorem entryOf_cons (entry : Segment → Value) (final : Value)
    (segment : Segment) (segments : List Segment) :
    entryOf entry final (segment :: segments) = entry segment := rfl

theorem entryOf_append (entry : Segment → Value) (final : Value) (before after : List Segment) :
    entryOf entry final (before ++ after) = entryOf entry (entryOf entry final after) before := by
  cases before <;> rfl

variable {entry exit : Segment → Value} {Fits : Item → Segment → Prop}

inductive Joined (entry exit : Segment → Value) (Fits : Item → Segment → Prop)
    (final : Value) : List Item → List Segment → Prop
  | nil : Joined entry exit Fits final [] []
  | cons {item segment items segments} :
      Fits item segment → exit segment = entryOf entry final segments →
      Joined entry exit Fits final items segments →
      Joined entry exit Fits final (item :: items) (segment :: segments)

namespace Joined

variable {final : Value} {items : List Item} {segments : List Segment} {segment : Segment}

theorem length_eq (joined : Joined entry exit Fits final items segments) :
    segments.length = items.length := by
  induction joined with
  | nil => rfl
  | cons _ _ _ induction => simp [induction]

theorem append (joined : Joined entry exit Fits (entryOf entry final moreSegments) items segments)
    (more : Joined entry exit Fits final moreItems moreSegments) :
    Joined entry exit Fits final (items ++ moreItems) (segments ++ moreSegments) := by
  induction joined with
  | nil => exact more
  | cons fits meets _ induction =>
    apply cons fits _ induction
    rw [meets, entryOf_append]

variable (joined : Joined entry exit Fits final items segments)
include joined

theorem take (count : ℕ) : Joined entry exit Fits (entryOf entry final (segments.drop count))
      (items.take count) (segments.take count) := by
  induction joined generalizing count with
  | nil => simpa using nil
  | @cons item segment items segments fits meets rest induction =>
    cases count with
    | zero => exact nil
    | succ count =>
      apply cons fits _ (induction count)
      rw [← entryOf_append, List.take_append_drop]
      exact meets

theorem fits {i : ℕ} (itemAt : items[i]? = some item) (segmentAt : segments[i]? = some segment) :
    Fits item segment := by
  induction joined generalizing i with
  | nil => simp at itemAt
  | cons fits _ _ induction =>
    cases i with
    | zero =>
      simp only [List.getElem?_cons_zero, Option.some.injEq] at itemAt segmentAt
      exact itemAt ▸ segmentAt ▸ fits
    | succ i =>
      exact induction itemAt segmentAt

theorem exit_eq_entry (segmentAt : segments[i]? = some segment)
    (nextAt : segments[i + 1]? = some next) : exit segment = entry next := by
  induction joined generalizing i with
  | nil => simp at segmentAt
  | @cons _ _ _ segments _ meets _ induction =>
    rw [List.getElem?_cons_succ] at nextAt
    cases i with
    | zero =>
      simp only [List.getElem?_cons_zero, Option.some.injEq] at segmentAt
      cases segments with
      | nil => simp at nextAt
      | cons follower segments =>
        simp only [List.getElem?_cons_zero, Option.some.injEq] at nextAt
        rw [← segmentAt, meets, entryOf_cons, nextAt]
    | succ i =>
      exact induction segmentAt nextAt

theorem exit_last (last : segments.getLast? = some segment) : exit segment = final := by
  induction joined with
  | nil => simp at last
  | @cons _ _ _ segments _ meets _ induction =>
    cases segments with
    | nil =>
      simp only [List.getLast?_singleton, Option.some.injEq] at last
      rw [← last, meets, entryOf_nil]
    | cons follower segments =>
      exact induction last

end Joined

end CentauriCarbon
