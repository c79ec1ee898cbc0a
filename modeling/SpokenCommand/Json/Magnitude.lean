import SpokenCommand.Json.Value
import SpokenCommand.Text.Decimal
/-!
Numbers that JSON text can be read as.

A number without point, exponent and sign is a natural number if it fits into 64 bits.  Every other
number is read in binary floating point and must be FINITE there.  The digits are gathered into a
64-bit significand and a decimal exponent — a digit that no longer fits raises the exponent before
the point and is dropped after it — and the significand is then scaled by a power of ten, both
rounded to 53 bits.  Nothing but the question whether the result is finite is asked here.
-/

namespace SpokenCommand.Json

/-- The natural number that a number spells, if it is one of 64 bits. -/
def Number.natural? (n : Number) : Option Nat :=
  if !n.isNegative && n.fraction.isNone && n.exponent.isNone
      && Text.digitsValue n.whole ≤ Text.maxNat64 then
    some (Text.digitsValue n.whole)
  else none

/-- The significand with as many digits appended as fit, and those left over. -/
def gather (significand : Nat) : List Char → Nat × List Char
  | [] => (significand, [])
  | c :: rest =>
    let more := 10 * significand + Text.digitValue c
    if more ≤ Text.maxNat64 then gather more rest else (significand, c :: rest)

/-- The significand and the decimal exponent of the digits before and after the point. -/
def Number.scale (n : Number) : Nat × Int :=
  let (significand, excess) := gather 0 n.whole
  let digits := n.fraction.getD []
  let (significand', dropped) := gather significand digits
  (significand', excess.length - (digits.length - dropped.length : Nat))

/-- A natural number rounded to 53 significant bits, a half to the even neighbour. -/
def roundTo53 (n : Nat) : Nat :=
  let unit := Nat.pow 2 (n.log2 - 52)
  let low := n / unit
  let twice := 2 * (n % unit)
  unit * (if twice > unit || (twice == unit && low % 2 == 1) then low + 1 else low)

/-- Whether a significand times a power of ten is below the largest floating-point number, rounding
    considered. -/
def isFiniteProduct (significand : Nat) (exponent : Int) : Bool :=
  if significand = 0 || exponent < 0 then true
  else if exponent > 308 then false
  else roundTo53 significand * roundTo53 (Nat.pow 10 exponent.toNat) < Nat.pow 2 1024 - Nat.pow 2 970

/-- Whether a number is finite in floating point. -/
def Number.isFinite (n : Number) : Bool :=
  let (significand, scale) := n.scale
  match n.exponent with
  | none => isFiniteProduct significand scale
  | some (true, digits) => isFiniteProduct significand (scale - Text.digitsValue digits)
  | some (false, digits) =>
    if Text.digitsValue digits > Text.maxInt32 then significand == 0
    else isFiniteProduct significand (scale + Text.digitsValue digits)

/-! ## Values that can be read whole -/

mutual

/-- Whether everything in a value can be read: its texts stand for characters, its numbers are
    finite, and its containers are nested at most `depth` deep. -/
def Value.isReadable (depth : Nat) : Value → Bool
  | .null => true
  | .bool _ => true
  | .number n => n.isFinite
  | .string pieces => (decode pieces).isSome
  | .array items => depth ≠ 0 && areReadable (depth - 1) items
  | .object members => depth ≠ 0 && membersAreReadable (depth - 1) members

/-- Whether everything in a list of values can be read. -/
def areReadable (depth : Nat) : List Value → Bool
  | [] => true
  | item :: rest => item.isReadable depth && areReadable depth rest

/-- Whether all keys and everything in the values of members can be read. -/
def membersAreReadable (depth : Nat) : List (List Piece × Value) → Bool
  | [] => true
  | (key, value) :: rest =>
    (decode key).isSome && value.isReadable depth && membersAreReadable depth rest

end

end SpokenCommand.Json
