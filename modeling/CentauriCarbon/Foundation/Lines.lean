import Mathlib.Data.List.Basic

/-! # Lines of a text

A text is cut into lines at a separator. What stands behind the last separator is not a
line yet; it may be continued by more text.
-/

namespace CentauriCarbon

open List

variable {Symbol : Type} {separator : Symbol}

def joined (separator : Symbol) (lines : List (List Symbol)) : List Symbol :=
  lines.flatMap fun line => line ++ [separator]

theorem joined_cons (line : List Symbol) (lines : List (List Symbol)) :
    joined separator (line :: lines) = line ++ separator :: joined separator lines := by
  rw [joined, flatMap_cons, append_assoc]
  rfl

theorem joined_append (front back : List (List Symbol)) :
    joined separator (front ++ back) = joined separator front ++ joined separator back :=
  flatMap_append

variable [DecidableEq Symbol]

def terminatedLines (separator : Symbol) (text : List Symbol) : List (List Symbol) :=
  (text.splitOn separator).dropLast

variable {lines : List (List Symbol)} {front : List Symbol} {rest : List Symbol}

theorem splitOn_joined (separated : ∀ line ∈ lines, separator ∉ line)
    (noSeparator : separator ∉ rest) :
    (joined separator lines ++ rest).splitOn separator = lines ++ [rest] := by
  induction lines with
  | nil => exact splitOn_eq_singleton noSeparator
  | cons line lines induction =>
    rw [joined_cons, append_assoc, cons_append,
      splitOn_append_cons_self_of_not_mem (separated line mem_cons_self),
      induction fun other member => separated other (mem_cons_of_mem _ member)]
    rfl

theorem terminatedLines_joined (separated : ∀ line ∈ lines, separator ∉ line)
    (noSeparator : separator ∉ rest) :
    terminatedLines separator (joined separator lines ++ rest) = lines := by
  rw [terminatedLines, splitOn_joined separated noSeparator, dropLast_concat]

theorem exists_joined (separator : Symbol) (text : List Symbol) :
    ∃ lines rest, text = joined separator lines ++ rest ∧
      (∀ line ∈ lines, separator ∉ line) ∧ separator ∉ rest := by
  induction text with
  | nil => exact ⟨[], [], rfl, by simp, by simp⟩
  | cons symbol text induction =>
    rcases induction with ⟨lines, rest, text_eq, separated, noSeparator⟩
    by_cases isSeparator : symbol = separator
    · refine ⟨[] :: lines, rest, ?_, ?_, noSeparator⟩
      · rw [joined_cons, text_eq, isSeparator]
        rfl
      · exact forall_mem_cons.mpr ⟨not_mem_nil, separated⟩
    have notMem : ∀ line, separator ∉ line → separator ∉ symbol :: line :=
      fun line free => not_mem_cons_of_ne_of_not_mem (Ne.symm isSeparator) free
    cases lines with
    | nil => exact ⟨[], symbol :: rest, by rw [text_eq]; rfl, by simp, notMem rest noSeparator⟩
    | cons line lines =>
      refine ⟨(symbol :: line) :: lines, rest, ?_, ?_, noSeparator⟩
      · rw [text_eq, joined_cons, joined_cons]
        rfl
      exact forall_mem_cons.mpr
        ((forall_mem_cons.mp separated).imp_left (notMem line))

/-- A text is continued by another one: the rest of the first is the start of its next
piece. -/
theorem splitOn_append_of_not_mem (free : separator ∉ front) (text : List Symbol) :
    (front ++ text).splitOn separator =
      (text.splitOn separator).modifyHead fun piece => front ++ piece := by
  induction front with
  | nil => cases pieces : text.splitOn separator <;> exact pieces
  | cons symbol front induction =>
    rw [mem_cons, not_or] at free
    rw [cons_append, splitOn_cons_eq_if_modifyHead, induction free.2, modifyHead_modifyHead]
    rw [if_neg (by simpa using Ne.symm free.1)]
    rfl

/-- The pieces of a text that continues a rest are lines and another rest. -/
theorem exists_pieces (free : separator ∉ front) (text : List Symbol) : ∃ lines rest,
      (text.splitOn separator).modifyHead (fun piece => front ++ piece) = lines ++ [rest] ∧
      front ++ text = joined separator lines ++ rest ∧
      (∀ line ∈ lines, separator ∉ line) ∧ separator ∉ rest := by
  rcases exists_joined separator (front ++ text) with
    ⟨lines, rest, text_eq, separated, noSeparator⟩
  refine ⟨lines, rest, ?_, text_eq, separated, noSeparator⟩
  rw [← splitOn_append_of_not_mem free, text_eq, splitOn_joined separated noSeparator]

end CentauriCarbon
