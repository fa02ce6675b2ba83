import CentauriCarbon.Foundation.FileSystem

/-! # The record of a power outage

It is written over the only one there is, and read at the next start.
-/

namespace CentauriCarbon.VirtualSd

open List

/-- What is used of the library: it reads what it wrote, and throws at a text that was cut. -/
structure Json (Context : Type) where
  dump : Context → List Char
  parse : List Char → Option Context
  fileName : Context → String
  printDuration : Context → Rat
  enablePowerOutage : Context → Int
  parse_nil : parse [] = none
  parse_dump : ∀ context, parse (dump context) = context
  parse_take : ∀ context, ∀ bytes < (dump context).length,
    parse ((dump context).take bytes) = none

/-- The power fails after `count` operations; `bytes` of the text are written, and `fsync` changes
nothing. -/
def handlePowerOutage (text : List Char) (bytes count : Nat) : List (FileOp Unit Char) :=
  [.create (), .write () (text.take bytes), .close ()].take count

structure Ready (Context : Type) where
  powerOutageContext : Option Context
  selected : Option (String × Rat)
  isRemoved : Bool

variable {Context : Type} (json : Json Context) (isFile loads : String → Bool)

/-- `isFile` is what `stat` says of a file name, and `loads` whether `M23` with that name returns:
it strips the name and throws if it cannot open the file. -/
def handleReady : Option (List Char) → Option (Ready Context)
  | none => some ⟨none, none, false⟩
  | some text => (json.parse text).bind fun context =>
    let fileName := json.fileName context
    let isRemoved := decide (json.enablePowerOutage context = 0)
    if isFile fileName then
      if loads fileName then
        some ⟨context, some (fileName, json.printDuration context), isRemoved⟩
      else none
    else some ⟨context, none, isRemoved⟩

/-- The file of the record is gone, or `M23` loads it. -/
def Loadable (context : Context) : Prop :=
  isFile (json.fileName context) → loads (json.fileName context)

variable {json isFile loads} in
/-- A start that finds a whole record returns if it can load the file of the record. -/
theorem handleReady_dump (context : Context) {found : List (Option Context)}
    (isFound : some context ∈ found) :
    (∃ ready ∈ handleReady json isFile loads (some (json.dump context)),
      ready.powerOutageContext ∈ found) ↔ Loadable json isFile loads context := by
  rw [handleReady, json.parse_dump, Loadable]
  by_cases present : isFile (json.fileName context)
  · by_cases opens : loads (json.fileName context) <;> simp [present, opens, isFound]
  · simp [present, isFound]

variable (old : Option Context) (new : Context) (bytes count : Nat)

/-- What the next start finds. -/
def restart : Option (Ready Context) :=
  (runEvents FileOp.apply (fun _ => old.map json.dump)
    (handlePowerOutage (json.dump new) bytes count)).bind
      fun files => handleReady json isFile loads (files ())

theorem record_survives_iff :
    (∃ ready ∈ restart json isFile loads old new bytes count,
      ready.powerOutageContext ∈ [none, old, some new]) ↔
      count = 0 ∧ (∀ context ∈ old, Loadable json isFile loads context) ∨
        2 ≤ count ∧ (json.dump new).length ≤ bytes ∧ Loadable json isFile loads new := by
  rcases count with _ | _ | count
  · cases old with
    | none => simp [restart, handlePowerOutage, handleReady]
    | some context =>
      simpa [restart, handlePowerOutage] using
        handleReady_dump context (by simp : some context ∈ [none, some context, some new])
  · simp [restart, handlePowerOutage, runEvents, FileOp.apply, handleReady, json.parse_nil]
  have written : restart json isFile loads old new bytes (count + 2) =
      handleReady json isFile loads (some ((json.dump new).take bytes)) := by
    cases count <;> simp [restart, handlePowerOutage, runEvents, FileOp.apply]
  rw [written]
  rcases Nat.lt_or_ge bytes (json.dump new).length with cut | whole
  · simp [handleReady, json.parse_take new bytes cut, Nat.not_le.mpr cut]
  · rw [take_of_length_le whole, handleReady_dump new (by simp)]
    simp [whole]

def braces : Json Unit where
  dump _ := ['{', '}']
  parse text := if text = ['{', '}'] then some () else none
  fileName _ := "cube"
  printDuration _ := 0
  enablePowerOutage _ := 1
  parse_nil := rfl
  parse_dump _ := rfl
  parse_take _ := by decide

theorem record_lost :
    restart braces (fun _ => true) (fun _ => true) (some ()) () 0 1 = none := rfl

end CentauriCarbon.VirtualSd
