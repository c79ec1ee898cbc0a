import SpokenCommand.Text.Decimal
/-!
Numbers spoken digit by digit.

"one two" is 12; "oh" is another word for zero.  A number that does not fit into a signed 64-bit
number is the largest one that does.
-/

namespace SpokenCommand.Session

/-- The digit that a word stands for. -/
def digit? : String → Option Nat
  | "zero" => some 0
  | "oh" => some 0
  | "one" => some 1
  | "two" => some 2
  | "three" => some 3
  | "four" => some 4
  | "five" => some 5
  | "six" => some 6
  | "seven" => some 7
  | "eight" => some 8
  | "nine" => some 9
  | _ => none

/-- Whether a word is a digit. -/
def isDigitWord (word : String) : Bool := (digit? word).isSome

/-- One more digit after those of `value`, up to the largest number. -/
def appendDigit (value : Nat) (word : String) : Nat :=
  min (10 * value + (digit? word).getD 0) Text.maxInt64

/-- The number of a run of digit words. -/
def valueOfDigits (digits : List String) : Nat := digits.foldl appendDigit 0

/-- The number of the digit words from an index on, and the index after them. -/
def readNumber (words : List String) (start : Nat) : Nat × Nat :=
  let run := (words.drop start).takeWhile isDigitWord
  (valueOfDigits run, start + run.length)

/-- Like `readNumber`, after a word that may make the number negative. -/
def readInteger (words : List String) (start : Nat) : Int × Nat :=
  if words[start]? = some "minus" ∨ words[start]? = some "negative" then
    let (value, after) := readNumber words (start + 1)
    (-value, after)
  else
    let (value, after) := readNumber words start
    (value, after)

/-- The number of the last run of digit words, if there is one. -/
def readLastNumber (words : List String) : Option Nat :=
  match (words.reverse.dropWhile fun w => !isDigitWord w).takeWhile isDigitWord with
  | [] => none
  | run => some (valueOfDigits run.reverse)

end SpokenCommand.Session
