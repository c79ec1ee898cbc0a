import SpokenCommand.Text.Quoted
/-!
What can be wrong with an action script.  Offsets count characters from zero.
-/

namespace SpokenCommand.Script

/-- A reason why an action script does not compile. -/
inductive Error where
  | /-- Text without its closing mark; the offset is that of the opening one. -/
    unterminatedText (offset : Nat)
  | /-- A sign that no key name follows. -/
    missingKeyName (offset : Nat)
  | /-- A name that is no key's. -/
    unknownKey (name : String)
  | /-- No comma after the first coordinate. -/
    missingMouseComma (offset : Nat)
  | /-- A mouse step that is not closed. -/
    unclosedMouse (offset : Nat)
  | /-- The script ends where a click was expected. -/
    missingClick (offset : Nat)
  | /-- A letter that is no button's. -/
    unknownClick (letter : Char)
  | /-- A repetition with nothing to repeat. -/
    danglingRepeat (offset : Nat)
  | /-- A repetition without a number. -/
    missingRepeatCount (offset : Nat)
  | /-- A repetition zero times. -/
    zeroRepeat
  | /-- A repetition that is not closed. -/
    unclosedRepeat (offset : Nat)
  | /-- A number beyond its range. -/
    numberOutOfRange (digits : String)
  | /-- A character that begins no step. -/
    unexpectedCharacter (character : Char) (offset : Nat)
deriving DecidableEq, Repr

/-- The wording of an error. -/
def Error.message : Error → String
  | unterminatedText o => s!"missing closing ` for text starting at offset {o}"
  | missingKeyName o => s!"expected a key name at offset {o}"
  | unknownKey name => s!"unknown key `{name}`"
  | missingMouseComma o => s!"expected ',' after mouse X coordinate at offset {o}"
  | unclosedMouse o => s!"expected '>' to close mouse action at offset {o}"
  | missingClick o => s!"expected a click type at offset {o}"
  | unknownClick letter => s!"unknown mouse click `{letter}`"
  | danglingRepeat o => s!"repeat at offset {o} has no preceding action"
  | missingRepeatCount o => s!"expected a repeat count at offset {o}"
  | zeroRepeat => "repeat count must be at least 1"
  | unclosedRepeat o => s!"expected closing '\x7d' after repeat count at offset {o}"
  | numberOutOfRange digits => s!"number `{digits}` is out of range"
  | unexpectedCharacter c o => "unexpected character " ++ Text.quoteChar c ++ s!" at offset {o}"

end SpokenCommand.Script
