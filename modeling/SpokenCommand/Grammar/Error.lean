import SpokenCommand.Grammar.Token
import SpokenCommand.Text.Quoted
/-!
What can be wrong with grammar source.

Positions count tokens from zero, except that the offset of a control character counts bytes.  A
source that ends inside a bracket is wrong at no token, so `unclosed` only says which bracket is
missing.
-/

namespace SpokenCommand.Grammar

/-- A reason why grammar source does not compile. -/
inductive Error where
  | /-- A control character, which belongs to no token. -/
    controlCharacter (character : Char) (offset : Nat)
  | /-- There is no token at all. -/
    empty
  | /-- A sequence without an element. -/
    emptySequence (position : Nat)
  | /-- A bracket whose first alternative is missing. -/
    leadingPipe (position : Nat)
  | /-- A mark of repetition with nothing to repeat. -/
    danglingMark (mark : Mark) (position : Nat)
  | /-- A mark after an optional group. -/
    markedOptional (position : Nat)
  | /-- A mark after a reference whose template already carries a repeat. -/
    markedReference (name : String) (position : Nat)
  | /-- A dollar sign that is followed by no name. -/
    missingName (position : Nat)
  | /-- A reference to a name that is not defined. -/
    undefinedName (name : String) (position : Nat)
  | /-- The source ends inside a bracket. -/
    unclosed (bracket : Bracket)
  | /-- A token that cannot stand where it does. -/
    unexpectedToken (token : Token) (position : Nat)
  | /-- A template cannot take the name of a built-in one. -/
    reservedName (name : String)
deriving DecidableEq, Repr

/-- The wording of an error. -/
def Error.message : Error → String
  | controlCharacter c offset =>
    "unexpected control character " ++ Text.quoteChar c ++ s!" at offset {offset}"
  | empty => "grammar is empty"
  | emptySequence p => s!"empty sequence at token {p}"
  | leadingPipe p => s!"choices must not start with '|' (token {p})"
  | danglingMark m p => s!"'{m.char}' at token {p} does not follow an element"
  | markedOptional p => s!"cannot apply + or * to an optional group (token {p})"
  | markedReference name _ =>
    s!"cannot apply + or * to `${name}`, which is already optional or repeated"
  | missingName p => s!"'$' at token {p} has no name after it"
  | undefinedName name _ => s!"undefined reference `${name}`"
  | unclosed b => s!"missing closing '{b.closingChar}'"
  | unexpectedToken token p => s!"unexpected '{token.text}' at token {p}"
  | reservedName name => s!"`{name}` is reserved and cannot be redefined"

end SpokenCommand.Grammar
