import CentauriCarbon.Codec.MessageFormat

/-! # Numbers of parameters and options

The readers catch the exceptions of a conversion, log them, and go on with a variable that was
never set. A default is not compared with the bounds, and `nan` breaks none of them.
-/

namespace CentauriCarbon.Config

inductive NumberError where
  | command (message : String)
  | configParser (message : String)
  | value (message : String)

inductive Bound where
  | minval
  | maxval
  | above
  | below

namespace Bound

def broken [LinearOrder Number] (value limit : Number) : Bound → Bool
  | .minval => value < limit
  | .maxval => value > limit
  | .above => value ≤ limit
  | .below => value ≥ limit

def words (verb : String) : Bound → String
  | .minval => "have minimum of "
  | .maxval => "have maximum of "
  | .above => verb ++ " above "
  | .below => verb ++ " below "

end Bound

/-- What is read, `std::stoi` or `std::stod`, and what is in the variable before. A `nan`, a bound
that is not set and a default that is not given are `none`. -/
structure NumberQuery (Number : Type) where
  text : Option (List Char)
  convert : List Char → Option (Option Number)
  uninitialised : Option Number
  defaultValue : Option (Option Number)
  limit : Bound → Option Number

namespace NumberQuery

variable [LinearOrder Number] (query : NumberQuery Number)

def refusing (value : Option Number) : Option Bound :=
  [.minval, .maxval, .above, .below].find? fun bound =>
    (query.limit bound).any fun limit => value.any (bound.broken · limit)

def get (missing : NumberError) (refused : Bound → NumberError) :
    Except NumberError (Option Number) :=
  match query.text with
  | none => query.defaultValue.elim (.error missing) .ok
  | some text =>
    let value := (query.convert text).getD query.uninitialised
    (query.refusing value).elim (.ok value) fun bound => .error (refused bound)

def Within (value : Option Number) : Prop :=
  ∀ bound, ∀ limit ∈ query.limit bound, ∃ number ∈ value, bound.broken number limit = false

def Right (result : Except NumberError (Option Number)) : Prop :=
  ∀ value, result = .ok value →
    query.text.elim query.defaultValue query.convert = some value ∧ query.Within value

def Kept : Prop :=
  match query.text with
  | none => ∀ value ∈ query.defaultValue, query.Within value
  | some text => match query.convert text with
    | none => query.refusing query.uninitialised ≠ none
    | some value => value = none → query.Within none

variable {query}

theorem within_of_refusing_eq_none {number : Number} (unrefused : query.refusing number = none) :
    query.Within number := by
  intro bound limit set
  have unbroken := List.find?_eq_none.mp unrefused bound (by cases bound <;> simp)
  rw [Option.mem_def.mp set] at unbroken
  exact ⟨number, rfl, Bool.eq_false_of_not_eq_true unbroken⟩

theorem refusing_none : query.refusing none = none := by
  simp [refusing]

theorem right_get_iff (missing : NumberError) (refused : Bound → NumberError) :
    query.Right (query.get missing refused) ↔ query.Kept := by
  unfold Right get Kept
  cases query.text with
  | none => cases query.defaultValue <;> simp
  | some text =>
    cases converted : query.convert text with
    | none => cases refusal : query.refusing query.uninitialised <;> simp [converted, refusal]
    | some value =>
      cases value with
      | none => simp [converted, refusing_none]
      | some number =>
        cases refusal : query.refusing number with
        | none => simp [converted, refusal, within_of_refusing_eq_none refusal]
        | some bound => simp [converted, refusal]

end NumberQuery

def intNone : ℤ := -2 ^ 31

/-- `intNone` as an argument is `none`. -/
structure IntQuery where
  text : Option (List Char)
  uninitialised : ℤ
  defaultValue : Option ℤ
  minval : Option ℤ
  maxval : Option ℤ

def stoi (text : List Char) : Option ℤ :=
  (Codec.stoll text).filter fun value => -2 ^ 31 ≤ value ∧ value < 2 ^ 31

def IntQuery.number (query : IntQuery) : NumberQuery ℤ where
  text := query.text
  convert text := (stoi text).map some
  uninitialised := query.uninitialised
  defaultValue := query.defaultValue.map some
  limit
    | .minval => query.minval
    | .maxval => query.maxval
    | _ => none

abbrev Double := Option (WithBot (WithTop ℚ))
abbrev DoubleQuery := NumberQuery (WithBot (WithTop ℚ))

namespace GCodeCommand

variable [LinearOrder Number] (commandline name : String)

def get (query : NumberQuery Number) (shown : Bound → String) :
    Except NumberError (Option Number) :=
  query.get (.command s!"Error on '{commandline}': missing {name}") fun bound =>
    .command (s!"Error on {commandline} : {name} must " ++ bound.words "be" ++ shown bound)

-- The message about the maximum shows the minimum.
def getInt (query : IntQuery) : Except NumberError (Option ℤ) :=
  get commandline name query.number fun _ => toString (query.minval.getD intNone)

def getDouble (query : DoubleQuery) (toText : Double → String) : Except NumberError Double :=
  get commandline name query fun bound => toText (query.limit bound)

end GCodeCommand

namespace ConfigWrapper

variable [LinearOrder Number] (sectionName option : String)

def get (query : NumberQuery Number) (shown : Bound → String) :
    Except NumberError (Option Number) :=
  let place := s!"Option {option} in section {sectionName} must "
  query.get (.configParser (place ++ "be specified")) fun bound =>
    .value (place ++ bound.words "have" ++ shown bound)

def getint (query : IntQuery) : Except NumberError (Option ℤ) :=
  get sectionName option query.number fun bound =>
    toString ((query.number.limit bound).getD intNone)

def getdouble (query : DoubleQuery) (toText : Double → String) : Except NumberError Double :=
  get sectionName option query fun bound => toText (query.limit bound)

end ConfigWrapper

theorem number_right_iff (commandline name sectionName option : String) (int : IntQuery)
    (double : DoubleQuery) (toText : Double → String) :
    (int.number.Right (GCodeCommand.getInt commandline name int) ↔ int.number.Kept) ∧
    (double.Right (GCodeCommand.getDouble commandline name double toText) ↔ double.Kept) ∧
    (int.number.Right (ConfigWrapper.getint sectionName option int) ↔ int.number.Kept) ∧
    (double.Right (ConfigWrapper.getdouble sectionName option double toText) ↔ double.Kept) := by
  refine ⟨?_, ?_, ?_, ?_⟩
  all_goals exact NumberQuery.right_get_iff _ _

theorem unreadable_number_used :
    stoi ['X'] = none ∧
      GCodeCommand.getInt "PAUSE GOTO_WASTE_BOX=X" "GOTO_WASTE_BOX"
        ⟨some ['X'], 0, some 1, some 0, some 1⟩ = .ok (some 0) :=
  ⟨rfl, rfl⟩

end CentauriCarbon.Config
