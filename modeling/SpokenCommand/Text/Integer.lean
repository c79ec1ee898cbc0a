import SpokenCommand.Text.Decimal
/-!
Integers given from outside, as settings are.

A plus sign is always allowed, a minus sign only where negative numbers are.  The digits are checked
from left to right, and the first one that is no digit or leaves the range is what is wrong.
-/

namespace SpokenCommand.Text

/-- Why a text is not an integer of some range. -/
inductive IntegerError where
  | empty
  | invalidDigit
  | tooLarge
  | tooSmall
deriving DecidableEq, Repr

/-- The wording of an error. -/
def IntegerError.message : IntegerError → String
  | empty => "cannot parse integer from empty string"
  | invalidDigit => "invalid digit found in string"
  | tooLarge => "number too large to fit in target type"
  | tooSmall => "number too small to fit in target type"

/-- The number of `value` and the digits after it, which must not exceed `max`. -/
def readMagnitude (max : Nat) (excess : IntegerError) (value : Nat) :
    List Char → Except IntegerError Nat
  | [] => .ok value
  | c :: rest =>
    if !c.isDigit then .error .invalidDigit
    else if 10 * value + digitValue c > max then .error excess
    else readMagnitude max excess (10 * value + digitValue c) rest

/-- The number of a run of digits, at least one of them. -/
def readUnsigned (max : Nat) (excess : IntegerError) (digits : List Char) :
    Except IntegerError Nat :=
  if digits.isEmpty then .error .invalidDigit else readMagnitude max excess 0 digits

/-- A 64-bit natural number. -/
def natural64 (text : String) : Except IntegerError Nat :=
  match text.toList with
  | [] => .error .empty
  | '+' :: digits => readUnsigned maxNat64 .tooLarge digits
  | digits => readUnsigned maxNat64 .tooLarge digits

/-- A 32-bit integer. -/
def integer32 (text : String) : Except IntegerError Int :=
  match text.toList with
  | [] => .error .empty
  | '-' :: digits => (readUnsigned (maxInt32 + 1) .tooSmall digits).map fun n => -(n : Int)
  | '+' :: digits => (readUnsigned maxInt32 .tooLarge digits).map fun n => (n : Int)
  | digits => (readUnsigned maxInt32 .tooLarge digits).map fun n => (n : Int)

end SpokenCommand.Text
