/-!
Modes as they are defined.

A mode has named grammar templates, commands, and child modes of the same shape; a definitions file
describes the root mode.  The order of templates and of children counts, because a template may
refer to those defined before it.
-/

namespace SpokenCommand.Modes

/-- A command as it is defined.  Without a name of its own it is called by its grammar. -/
structure CommandDefinition where
  name : Option String
  grammar : String
  action : Option String
  function : Option String
deriving DecidableEq, Repr

/-- A mode as it is defined. -/
structure ModeDefinition where
  defines : List (String × String)
  commands : List CommandDefinition
  modes : List (String × ModeDefinition)
deriving BEq, Repr

/-- A mode that defines nothing. -/
def ModeDefinition.empty : ModeDefinition := ⟨[], [], []⟩

end SpokenCommand.Modes
