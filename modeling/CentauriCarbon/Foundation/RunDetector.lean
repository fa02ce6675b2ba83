import Mathlib.Data.List.Induction

/-! # Detection of a run of positive items

Items are judged one after the other. The detector looks for the first run of positive
items that has a given length.
-/

namespace CentauriCarbon

/-- `latest` is the first item of the latest run, also of one that was interrupted. -/
structure RunDetector (Item : Type) where
  run : List Item
  found : Option (List Item)
  latest : Option Item

namespace RunDetector

variable {Item : Type}

def start : RunDetector Item := ⟨[], none, none⟩

def step (length : ℕ) (detector : RunDetector Item) (judged : Item × Bool) : RunDetector Item :=
  if detector.found.isSome then detector
  else if judged.2 then
    let run := detector.run ++ [judged.1]
    if run.length = length then ⟨run, some run, run.head?⟩
    else { detector with run, latest := run.head? }
  else { detector with run := [] }

def detect (length : ℕ) (judged : List (Item × Bool)) : RunDetector Item :=
  judged.foldl (step length) start

def positives (items : List Item) : List (Item × Bool) := items.map fun item => (item, true)

structure Seen (length : ℕ) (judged : List (Item × Bool)) (detector : RunDetector Item) :
    Prop where
  last : detector.found = none → ∃ before, judged = before ++ positives detector.run
  found : ∀ run, detector.found = some run → run.length = length ∧
    ∃ before after, judged = before ++ positives run ++ after

variable {judged : List (Item × Bool)}

theorem Seen.step (seen : Seen length judged detector) (next : Item × Bool) :
    Seen length (judged ++ [next]) (detector.step length next) := by
  rw [RunDetector.step]
  split
  next isFound =>
    constructor
    · intro none
      rw [none] at isFound
      cases isFound
    · intro run isRun
      rcases seen.found run isRun with ⟨length_eq, before, after, split⟩
      exact ⟨length_eq, before, after ++ [next], by rw [split, List.append_assoc]⟩
  next notFound =>
    have noneFound : detector.found = none := by simpa using notFound
    rcases seen.last noneFound with ⟨before, split⟩
    split
    next positive =>
      have longer : judged ++ [next] = before ++ positives (detector.run ++ [next.1]) := by
        rw [split, positives, positives, List.map_append, List.append_assoc]
        rw [← positive]
        rfl
      dsimp only
      split
      next complete =>
        constructor
        · nofun
        · intro run isRun
          cases isRun
          exact ⟨complete, before, [], by rw [longer, List.append_nil]⟩
      · constructor
        · intro _
          exact ⟨before, longer⟩
        · intro run isRun
          rw [noneFound] at isRun
          cases isRun
    · constructor
      · intro _
        exact ⟨judged ++ [next], by simp [positives]⟩
      · intro run isRun
        rw [noneFound] at isRun
        cases isRun

theorem seen_detect (length : ℕ) (judged : List (Item × Bool)) :
    Seen length judged (detect length judged) := by
  induction judged using List.reverseRecOn with
  | nil =>
    constructor
    · intro _
      exact ⟨[], rfl⟩
    · nofun
  | append_singleton judged next induction =>
    rw [detect, List.foldl_append]
    exact induction.step next

end RunDetector

end CentauriCarbon
