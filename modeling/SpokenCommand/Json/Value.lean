/-!
JSON as it is written.

A value keeps the SPELLING of its strings and numbers.  Whether the escapes of a string stand for
characters, and whether a number is in range, matters only to a reader that uses the value: what is
skipped may hold half a surrogate pair or a number without bound.

`Piece` is one character of a string as it is spelled: plain, a short escape such as `\n`, or the
four hexadecimal digits of a UTF-16 unit.  `Value.render` writes the compact form.
-/

namespace SpokenCommand.Json

/-- One character of a string, as it is spelled. -/
inductive Piece where
  | plain (c : Char)
  | /-- A backslash and one letter, which stands for `c`. -/
    short (c : Char)
  | /-- A backslash, a `u` and four hexadecimal digits. -/
    unit (code : Nat)
deriving DecidableEq, Repr

/-- A number, as it is spelled: the digits before the point, those after it, and the exponent with
    whether it is negative. -/
structure Number where
  isNegative : Bool
  whole : List Char
  fraction : Option (List Char)
  exponent : Option (Bool × List Char)
deriving DecidableEq, Repr

/-- A JSON value.  Members of an object stay in the order of the text, repeated ones included. -/
inductive Value where
  | null
  | bool (b : Bool)
  | number (n : Number)
  | string (pieces : List Piece)
  | array (items : List Value)
  | object (members : List (List Piece × Value))
deriving Repr

/-- The short escapes: the letter after the backslash, and the character that it stands for. -/
def shortEscapes : List (Char × Char) := [
  ('\x22', '\x22'), ('\\', '\\'), ('/', '/'), ('b', '\x08'), ('f', '\x0c'), ('n', '\n'),
  ('r', '\r'), ('t', '\t')]

/-- The character of a short escape. -/
def ofShortEscape? (letter : Char) : Option Char := shortEscapes.lookup letter

/-- The letter of the short escape that stands for a character. -/
def shortEscapeOf (c : Char) : Char :=
  match shortEscapes.find? fun (_, denoted) => denoted = c with
  | some (letter, _) => letter
  | none => c

/-- Whether a UTF-16 unit is the first half of a surrogate pair. -/
def isHighSurrogate (unit : Nat) : Bool := 0xd800 ≤ unit && unit ≤ 0xdbff

/-- Whether a UTF-16 unit is the second half of a surrogate pair. -/
def isLowSurrogate (unit : Nat) : Bool := 0xdc00 ≤ unit && unit ≤ 0xdfff

/-- The character of a surrogate pair. -/
def ofSurrogates (high low : Nat) : Char :=
  Char.ofNat (0x10000 + (high - 0xd800) * 0x400 + (low - 0xdc00))

/-- The characters that pieces stand for; none if half a surrogate pair stands alone. -/
def decode : List Piece → Option (List Char)
  | [] => some []
  | .plain c :: rest => (decode rest).map (c :: ·)
  | .short c :: rest => (decode rest).map (c :: ·)
  | .unit u :: rest =>
    if isHighSurrogate u then
      match rest with
      | .unit v :: rest =>
        if isLowSurrogate v then (decode rest).map (ofSurrogates u v :: ·) else none
      | _ => none
    else if isLowSurrogate u then none
    else (decode rest).map (Char.ofNat u :: ·)

/-- The text that pieces stand for. -/
def textOf? (pieces : List Piece) : Option String := (decode pieces).map String.ofList

/-- How a character is spelled: quotes and backslashes escaped, control characters escaped in the
    shortest way, all others plain. -/
def pieceOf (c : Char) : Piece :=
  if c = '\x22' ∨ c = '\\' ∨ c = '\x08' ∨ c = '\x0c' ∨ c = '\n' ∨ c = '\r' ∨ c = '\t' then .short c
  else if c.toNat < 0x20 then .unit c.toNat
  else .plain c

/-- A text as a JSON string. -/
def Value.ofText (text : String) : Value := .string (text.toList.map pieceOf)

/-- The text of a JSON string. -/
def Value.text? : Value → Option String
  | .string pieces => textOf? pieces
  | _ => none

/-- The hexadecimal digit of a number below sixteen. -/
def hexDigit (n : Nat) : Char := if n < 10 then Char.ofNat (48 + n) else Char.ofNat (87 + n)

/-- A piece as it is spelled. -/
def Piece.render : Piece → List Char
  | plain c => [c]
  | short c => ['\\', shortEscapeOf c]
  | unit u =>
    ['\\', 'u', hexDigit (u / 0x1000 % 16), hexDigit (u / 0x100 % 16), hexDigit (u / 0x10 % 16),
      hexDigit (u % 16)]

/-- A number as it is spelled. -/
def Number.render (n : Number) : List Char :=
  (if n.isNegative then ['-'] else []) ++ n.whole
    ++ (match n.fraction with | some digits => '.' :: digits | none => [])
    ++ (match n.exponent with
        | some (isNegative, digits) => 'e' :: (if isNegative then '-' :: digits else digits)
        | none => [])

/-- A string between its quotes. -/
def renderString (pieces : List Piece) : List Char :=
  '\x22' :: pieces.flatMap Piece.render ++ ['\x22']

mutual

/-- The compact form of a value, without blanks. -/
def Value.render : Value → List Char
  | .null => "null".toList
  | .bool true => "true".toList
  | .bool false => "false".toList
  | .number n => n.render
  | .string pieces => renderString pieces
  | .array items => '[' :: renderItems items ++ [']']
  | .object members => '\x7b' :: renderMembers members ++ ['\x7d']

/-- Items of an array, with commas between them. -/
def renderItems : List Value → List Char
  | [] => []
  | [item] => item.render
  | item :: rest => item.render ++ ',' :: renderItems rest

/-- Members of an object, with commas between them. -/
def renderMembers : List (List Piece × Value) → List Char
  | [] => []
  | [(key, value)] => renderString key ++ ':' :: value.render
  | (key, value) :: rest => renderString key ++ ':' :: value.render ++ ',' :: renderMembers rest

end

end SpokenCommand.Json
