/-!
Numbers in decimal digits.

`digitsValue` reads a run of ASCII digits as a natural number, with any number of leading zeros and
without a bound; whoever reads a number that has to fit compares the value with the bound.
-/

namespace SpokenCommand.Text

/-- The value of one ASCII digit. -/
def digitValue (c : Char) : Nat := c.toNat - '0'.toNat

/-- The value of a run of ASCII digits, read after the digits of `value`. -/
def digitsValueFrom (value : Nat) (digits : List Char) : Nat :=
  digits.foldl (fun n c => 10 * n + digitValue c) value

/-- The value of a run of ASCII digits. -/
def digitsValue (digits : List Char) : Nat := digitsValueFrom 0 digits

/-- The largest 64-bit natural number. -/
def maxNat64 : Nat := 18446744073709551615

/-- The largest signed 64-bit number. -/
def maxInt64 : Nat := 9223372036854775807

/-- The largest signed 32-bit number. -/
def maxInt32 : Nat := 2147483647

end SpokenCommand.Text
