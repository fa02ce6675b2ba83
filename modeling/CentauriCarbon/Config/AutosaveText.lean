import Mathlib.Data.List.DropRight

/-! # The text of the autosave file

`SAVE_CONFIG` keeps the regular part of the file, with the options commented out that are saved
again, and puts the saved options behind a header, each line behind a comment mark. The INI
library is represented by the text it writes and the values it finds.
-/

namespace CentauriCarbon.Config

abbrev Text := List Char

def isSpace (c : Char) : Bool :=
  c == ' ' || c == '\t' || c == '\n' || c == '\x0b' || c == '\x0c' || c == '\r'

def trimFront (text : Text) : Text := text.dropWhile isSpace

def trimBack (text : Text) : Text := text.rdropWhile isSpace

def trim (text : Text) : Text := trimBack (trimFront text)

def getlines (text : Text) : List Text :=
  let pieces := text.splitOn '\n'
  if pieces.getLast? = some [] then pieces.dropLast else pieces

def joinLines (lines : List Text) : Text := lines.flatMap fun line => line ++ ['\n']

def joinWith (delimiter : Text) (elements : List Text) : Text := delimiter.intercalate elements

def autosaveHeader : Text :=
  ("\n#*# <---------------------- SAVE_CONFIG ---------------------->\n" ++
    "#*# DO NOT EDIT THIS BLOCK OR BELOW. The contents are auto-generated.\n" ++
    "#*#").toList

def mark : Text := ['#', '*', '#', ' ']

def cutAt (pattern : Text) : Text → Option (Text × Text)
  | [] => if pattern.isEmpty then some ([], []) else none
  | c :: text =>
    if pattern.isPrefixOf (c :: text) then some ([], (c :: text).drop pattern.length)
    else (cutAt pattern text).map fun (front, back) => (c :: front, back)

def replaceCrLf : Text → Text
  | '\r' :: '\n' :: text => '\n' :: replaceCrLf text
  | c :: text => c :: replaceCrLf text
  | [] => []

def isModified (line : Text) : Bool :=
  line.take 3 != mark.take 3 || (4 ≤ line.length && line.take 4 != mark)

def findAutosaveData (data : Text) : Text × Text :=
  let (regularData, autosaveData) :=
    match cutAt autosaveHeader data with
    | some (front, back) => (front, trim back)
    | none => (data, [])
  if (cutAt ('\n' :: mark) regularData).isSome then (data, [])
  else
    let lines := autosaveData.splitOn '\n'
    if lines.any isModified && !autosaveData.isEmpty then (regularData, [])
    else (regularData, joinWith ['\n'] (lines.map (·.drop 4) ++ [[]]))

structure ConfigWrapper where
  saved : Text
  getValue : Text → Text → Option Text

/-- The regular expression `[#;].*$` is replaced by nothing; `.` matches no line terminator. -/
def dropComment : Text → Text
  | [] => []
  | c :: text =>
    if (c == '#' || c == ';') && text.all fun d => d != '\n' && d != '\r' then []
    else c :: dropComment text

def stripLines (config : ConfigWrapper) : Text → List Text → List Text
  | _, [] => []
  | current, line :: lines =>
    match trim (dropComment line) with
    | [] => line :: stripLines config current lines
    | '[' :: inner => line :: stripLines config (trim inner.dropLast) lines
    | pruned =>
      let field := if '=' ∈ pruned then pruned.takeWhile (· ≠ '=') else []
      let line := if (config.getValue current field).isSome then '#' :: line else line
      line :: stripLines config current lines

def stripDuplicates (data : Text) (config : ConfigWrapper) : Text :=
  joinWith ['\n'] (stripLines config [] (data.splitOn '\n'))

def autosaveBlock (saved : Text) : Text :=
  joinLines ((['\n', '\n'] ++ trim autosaveHeader) ::
    (getlines saved).map (fun line => trim (mark ++ line)) ++ [[]])

def saveConfigData (autosave : ConfigWrapper) (stored : Text) : Text :=
  trimBack (stripDuplicates (findAutosaveData (replaceCrLf stored)).1 autosave) ++
    autosaveBlock (trim autosave.saved)

theorem replaceCrLf_eq_nil_iff : replaceCrLf text = [] ↔ text = [] := by
  fun_cases replaceCrLf text with
  | case1 => simp
  | case2 => simp
  | case3 => simp

end CentauriCarbon.Config
