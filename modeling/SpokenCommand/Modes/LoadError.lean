import SpokenCommand.Grammar.Error
import SpokenCommand.Script.Error
/-!
Why definitions are not loaded.
-/

namespace SpokenCommand.Modes

/-- A reason why definitions are not loaded. -/
inductive LoadError where
  | /-- The definitions file cannot be read as text. -/
    unreadable
  | /-- The text is not JSON, or not of the shape of a mode. -/
    malformed
  | /-- A template does not compile. -/
    define (name : String) (cause : Grammar.Error)
  | /-- The grammar of a command does not compile. -/
    grammar (command : String) (cause : Grammar.Error)
  | /-- The action of a command does not compile. -/
    action (command : String) (cause : Script.Error)
  | /-- A command has nothing to do. -/
    missingAction (command : String)
  | /-- Two children of a mode have one name. -/
    duplicateMode (name : String)
deriving DecidableEq, Repr

/-- The wording of an error. -/
def LoadError.message : LoadError → String
  | unreadable => "failed to read"
  | malformed => "malformed definitions"
  | define name cause => s!"invalid define `{name}`: {cause.message}"
  | grammar command cause => s!"invalid grammar in '{command}': {cause.message}"
  | action command cause => s!"invalid action in '{command}': {cause.message}"
  | missingAction command => s!"function cannot be found and no action given for '{command}'"
  | duplicateMode name => s!"mode `{name}` is defined twice"

end SpokenCommand.Modes
