import Mathlib.Data.List.Chain

/-! # Splitting lines

`utilities.cpp`: `regex_split` cuts a line into runs of characters; `gcode.cpp` says which regular
expression it replaced.
-/

namespace CentauriCarbon.GCode

open List

def isWordChar (c : Char) : Bool := c.isUpper || c == '_'

def isSpecialChar (c : Char) : Bool := isWordChar c || c == '*' || c == '/'

/-- The loop of `regex_split`. -/
def runs : List Char → List (List Char)
  | [] => []
  | c :: line =>
    let same next := isSpecialChar next == isSpecialChar c
    (c :: line.takeWhile same) :: runs (line.dropWhile same)
termination_by line => line.length
decreasing_by exact Nat.lt_succ_of_le (dropWhile_sublist _).length_le

def edge (c : Option Char) : List (List Char) := if c.any isSpecialChar then [[]] else []

def regexSplit (line : List Char) : List (List Char) :=
  if line = [] then [[]] else edge line.head? ++ runs line ++ edge line.getLast?

/-- A split at the matches of `([A-Z_]+|[A-Z*/])` that keeps them. -/
def reSplit : List Char → List (List Char)
  | [] => [[]]
  | c :: line =>
    if isWordChar c then
      [] :: (c :: line.takeWhile isWordChar) :: reSplit (line.dropWhile isWordChar)
    else if c.isUpper || c == '*' || c == '/' then
      [] :: [c] :: reSplit line
    else (reSplit line).modifyHead (c :: ·)
termination_by line => line.length
decreasing_by
  · exact Nat.lt_succ_of_le (dropWhile_sublist _).length_le
  · exact Nat.lt_succ_self _
  · exact Nat.lt_succ_self _

def strip (input : List Char) : List Char :=
  let blank (c : Char) := c ∈ [' ', '\t', '\n', '\r', '\x0b', '\x0c']
  ((input.dropWhile blank).reverse.dropWhile blank).reverse

def commandOf (parts : List (List Char)) : List Char :=
  let part index := parts.getD index []
  if parts.length ≥ 3 ∧ part 1 ≠ ['N'] then part 1 ++ strip (part 2)
  else if parts.length ≥ 5 ∧ part 1 = ['N'] then part 3 ++ strip (part 4)
  else if parts.length = 2 then part 1
  else []

/-- The values of the parameters, after the parts that are left. -/
def params (values : List Char → Option (List Char)) :
    List (List Char) → List Char → Option (List Char)
  | _ :: key :: value :: parts =>
    params (Function.update values key (some (strip value))) (value :: parts)
  | _ => values

def Alternates : List (List Char) → Prop
  | [] => False
  | [text] => ∀ c ∈ text, ¬isSpecialChar c
  | text :: separator :: parts => (∀ c ∈ text, ¬isSpecialChar c) ∧ separator ≠ [] ∧
      (∀ c ∈ separator, isSpecialChar c) ∧ Alternates parts

structure SplitsRight (line : List Char) : Prop where
  command_eq : commandOf (regexSplit line) = commandOf (reSplit line)
  params_eq : params (fun _ => none) (regexSplit line) = params (fun _ => none) (reSplit line)
  alternates : Alternates (regexSplit line)
  flatten_eq : (regexSplit line).flatten = line

/-- No `*` or `/` stands next to a special character. -/
def Spaced (line : List Char) : Prop :=
  line.IsChain fun c next =>
    isSpecialChar c → isSpecialChar next → isWordChar c ∧ isWordChar next

variable {c d : Char} {line key : List Char} {parts : List (List Char)}

theorem runs_cons_cons : runs (c :: d :: line) =
      if isSpecialChar d == isSpecialChar c then (runs (d :: line)).modifyHead (c :: ·)
      else [c] :: runs (d :: line) := by
  split
  next same =>
    have same := eq_of_beq same
    simp [runs, same]
  next differs => simp [runs, differs]

theorem regexSplit_text (text : ¬isSpecialChar c) :
    regexSplit (c :: line) = (regexSplit line).modifyHead (c :: ·) := by
  cases line with
  | nil => simp [regexSplit, edge, runs, text]
  | cons d line =>
    by_cases special : isSpecialChar d <;>
      simp [regexSplit, edge, runs_cons_cons, text, special]
    simp [runs]

theorem regexSplit_special (special : isSpecialChar c) (text : ¬line.head?.any isSpecialChar) :
    regexSplit (c :: line) = [] :: [c] :: regexSplit line := by
  cases line with
  | nil => simp [regexSplit, edge, runs, special]
  | cons d line => simp [regexSplit, edge, runs_cons_cons, special,
      show ¬isSpecialChar d from text]

theorem regexSplit_run (line : List Char) (special : isSpecialChar c) (next : isSpecialChar d) :
    ∃ separator parts, regexSplit (d :: line) = [] :: (d :: separator) :: parts ∧
      regexSplit (c :: d :: line) = [] :: (c :: d :: separator) :: parts := by
  simp [regexSplit, edge, runs_cons_cons, special, next]
  simp [runs]

theorem reSplit_text (text : ¬isSpecialChar c) :
    reSplit (c :: line) = (reSplit line).modifyHead (c :: ·) := by
  simp only [isSpecialChar, isWordChar, Bool.not_eq_true, Bool.or_eq_false_iff] at text
  simp [reSplit, isWordChar, text]

theorem reSplit_special (special : isSpecialChar c) (text : ¬line.head?.any isSpecialChar) :
    reSplit (c :: line) = [] :: [c] :: reSplit line := by
  rw [reSplit]
  split
  next isWord =>
    cases line with
    | nil => rfl
    | cons d line =>
      have notWord : ¬isWordChar d := fun isWord => text (by simp [isSpecialChar, isWord])
      rw [takeWhile_cons_of_neg notWord, dropWhile_cons_of_neg notWord]
  next notWord =>
    rw [if_pos]
    simp [isSpecialChar, isWordChar] at notWord special ⊢
    simpa [notWord] using special

def separators : List (List Char) → List (List Char)
  | _ :: key :: value :: parts => key :: separators (value :: parts)
  | _ => []

theorem isSome_params (values : List Char → Option (List Char)) :
    (params values parts key).isSome ↔ (values key).isSome ∨ key ∈ separators parts := by
  fun_induction params values parts with
  | case1 values text first value parts induction =>
    rw [induction, separators, mem_cons]
    by_cases same : key = first <;> simp [same]
  | case2 values parts other => simp [separators]

/-- The matches are words or single characters. -/
def IsMatch (key : List Char) : Prop := key.length = 1 ∨ ∀ c ∈ key, isWordChar c

theorem separators_modifyHead (change : List Char → List Char) (parts : List (List Char)) :
    separators (parts.modifyHead change) = separators parts := by
  rcases parts with _ | ⟨_, _ | ⟨_, _ | _⟩⟩ <;> rfl

theorem mem_separators : key ∈ separators (text :: first :: parts) ↔
      parts ≠ [] ∧ key = first ∨ key ∈ separators parts := by
  cases parts <;> simp [separators]

theorem isMatch_of_mem_reSplit (member : key ∈ separators (reSplit line)) : IsMatch key := by
  fun_induction reSplit line with
  | case1 => cases member
  | case2 c line isWord induction =>
    rcases mem_separators.mp member with ⟨-, rfl⟩ | rest
    · right
      simp only [mem_cons, forall_eq_or_imp]
      exact ⟨isWord, fun d among => all_eq_true.mp all_takeWhile d among⟩
    · exact induction rest
  | case3 c line notWord isSign induction =>
    rcases mem_separators.mp member with ⟨-, rfl⟩ | rest
    · exact .inl rfl
    · exact induction rest
  | case4 c line notWord notSign induction =>
    rw [separators_modifyHead] at member
    exact induction member

structure Sound (line : List Char) : Prop where
  alternates : Alternates (regexSplit line)
  flatten_eq : (regexSplit line).flatten = line
  same : Spaced line → reSplit line = regexSplit line
  spaced : (∀ key ∈ separators (regexSplit line), IsMatch key) → Spaced line

namespace Sound

theorem text (sound : Sound line) (text : ¬isSpecialChar c) : Sound (c :: line) := by
  rcases sound with ⟨alternates, flatten_eq, same, spaced⟩
  have split : regexSplit (c :: line) = _ := regexSplit_text text
  rcases isParts : regexSplit line with _ | ⟨first, parts⟩
  · rw [isParts] at alternates
    exact alternates.elim
  rw [isParts] at alternates flatten_eq same spaced split
  rw [modifyHead_cons] at split
  constructor
  · rw [split]
    cases parts <;> simpa [Alternates, text] using alternates
  · simpa [split] using flatten_eq
  · intro chain
    rw [reSplit_text text, split, same chain.tail, modifyHead_cons]
  · intro isMatch
    rw [split, ← modifyHead_cons (f := (c :: ·)), separators_modifyHead] at isMatch
    exact .cons (spaced isMatch) fun d head special => absurd special text

theorem special (sound : Sound line) (special : isSpecialChar c)
    (next : ¬line.head?.any isSpecialChar) : Sound (c :: line) := by
  have split := regexSplit_special special next
  constructor
  · simpa [split, Alternates, special] using sound.alternates
  · simpa [split] using sound.flatten_eq
  · intro chain
    rw [reSplit_special special next, split, sound.same chain.tail]
  · intro isMatch
    rw [split] at isMatch
    refine .cons (sound.spaced fun key among => isMatch key (mem_separators.mpr (.inr among))) ?_
    intro d head _ isSpecial
    rw [head, Option.any] at next
    exact absurd isSpecial next

theorem run (sound : Sound (d :: line)) (special : isSpecialChar c) (next : isSpecialChar d) :
    Sound (c :: d :: line) := by
  rcases sound with ⟨alternates, flatten_eq, same, spaced⟩
  rcases regexSplit_run line special next with ⟨separator, parts, before, after⟩
  rw [before] at alternates flatten_eq same spaced
  have some_left : parts ≠ [] := by
    rintro rfl
    exact alternates.2.2.2
  constructor
  · simpa [after, Alternates, special] using alternates
  · simpa [after] using flatten_eq
  · intro chain
    have rest := same chain.tail
    have words := chain.rel special next
    simp only [reSplit, words, ↓reduceIte, cons.injEq, true_and] at rest
    rw [after, reSplit, if_pos words.1, takeWhile_cons_of_pos words.2,
      dropWhile_cons_of_pos words.2, rest.1, rest.2]
  · intro isMatch
    rw [after] at isMatch
    rcases isMatch _ (mem_separators.mpr (.inl ⟨some_left, rfl⟩)) with single | isWord
    · cases single
    rw [forall_mem_cons, forall_mem_cons] at isWord
    refine .cons_cons (fun _ _ => ⟨isWord.1, isWord.2.1⟩) (spaced ?_)
    intro key among
    rcases mem_separators.mp among with ⟨-, rfl⟩ | among
    · exact .inr (forall_mem_cons.mpr isWord.2)
    · exact isMatch key (mem_separators.mpr (.inr among))

end Sound

theorem sound_split (line : List Char) : Sound line := by
  induction line with
  | nil =>
    have split : regexSplit [] = [[]] := rfl
    refine ⟨?_, rfl, fun _ => reSplit.eq_1, fun _ => .nil⟩
    simp [split, Alternates]
  | cons c line induction =>
    by_cases special : isSpecialChar c
    · by_cases next : line.head?.any isSpecialChar
      · cases line with
        | nil => cases next
        | cons d line => exact induction.run special next
      · exact induction.special special next
    · exact induction.text special

/-- The command and the parameters are those of the regular expression exactly if no `*` or `/`
stands next to a separator. -/
theorem splitsRight_iff (line : List Char) : SplitsRight line ↔ Spaced line := by
  constructor
  · intro right
    apply (sound_split line).spaced
    intro key member
    have set := (isSome_params fun _ => none).mpr (.inr member)
    rw [right.params_eq, isSome_params] at set
    rcases set with unset | among
    · cases unset
    · exact isMatch_of_mem_reSplit among
  · intro spaced
    have sound := sound_split line
    have same := sound.same spaced
    exact ⟨same ▸ rfl, same ▸ rfl, sound.alternates, sound.flatten_eq⟩

theorem separators_joined : ¬SplitsRight ['X', '*'] := by
  intro right
  have scanned : commandOf (regexSplit ['X', '*']) = ['X', '*'] := by
    simp [regexSplit, edge, runs, commandOf, strip, isSpecialChar, isWordChar]
  have matched : commandOf (reSplit ['X', '*']) = ['X'] := by
    simp [reSplit, commandOf, strip, isWordChar]
  have same := right.command_eq
  rw [scanned, matched] at same
  cases same

end CentauriCarbon.GCode
