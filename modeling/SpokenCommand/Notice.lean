/-!
Notices: what is worth a line in the log although nothing stopped.

A notice is a CAUSE with its details.  Its level, its wording and its named fields are fixed here in
one place, so that the modules that raise a notice never spell out text.
-/

namespace SpokenCommand

/-- How urgent a notice is. -/
inductive Level where
  | info
  | warning
  | error
deriving DecidableEq, Repr

/-- The name of a level in the log. -/
def Level.name : Level → String
  | info => "INFO"
  | warning => "WARN"
  | error => "ERROR"

/-- Something reported while definitions are compiled or a phrase is carried out. -/
inductive Notice where
  | /-- A template replaces an earlier one of the same name. -/
    templateOverwritten (name : String)
  | /-- A command names a function that does not exist. -/
    functionNotFound (function command : String)
  | /-- Definitions that do not compile leave the previous ones in place. -/
    definitionsRejected (reason : String)
  | /-- A reload did not succeed. -/
    reloadFailed (reason : String)
  | /-- The current mode has no child of the wanted name. -/
    modeNotFound (name : String)
  | /-- There is no mode to leave. -/
    alreadyAtRoot
  | /-- The actions of a recognized command could not be queued. -/
    actionsNotQueued (reason command : String)
  | /-- The function of a recognized command failed. -/
    functionFailed (function reason : String)
  | /-- A spoken count was cut down to the largest one allowed. -/
    countCapped (function : String) (count : Nat) (max : Nat)
  | /-- The position of the cursor, asked for by voice. -/
    cursorPosition (x y : Int)
deriving DecidableEq, Repr

namespace Notice

/-- The level at which a notice is logged. -/
def level : Notice → Level
  | templateOverwritten _ => .warning
  | functionNotFound .. => .warning
  | definitionsRejected _ => .warning
  | reloadFailed _ => .error
  | modeNotFound _ => .warning
  | alreadyAtRoot => .warning
  | actionsNotQueued .. => .error
  | functionFailed .. => .warning
  | countCapped .. => .warning
  | cursorPosition .. => .info

/-- The wording of a notice. -/
def message : Notice → String
  | templateOverwritten _ => "overwriting define"
  | functionNotFound .. => "could not find function"
  | definitionsRejected _ => "definitions rejected, keeping previous definitions"
  | reloadFailed _ => "definitions are malformed, rolled back to old definitions"
  | modeNotFound _ => "cannot find mode to change to"
  | alreadyAtRoot => "cannot exit from global mode"
  | actionsNotQueued .. => "failed to queue actions"
  | functionFailed .. => "function failed"
  | countCapped .. => "spoken count too large, capping"
  | cursorPosition x y => s!"<{x}, {y}>"

/-- The named details of a notice. -/
def fields : Notice → List (String × String)
  | templateOverwritten name => [("define", name)]
  | functionNotFound function command => [("function", function), ("command", command)]
  | definitionsRejected reason => [("error", reason)]
  | reloadFailed reason => [("error", reason)]
  | modeNotFound name => [("mode", name)]
  | alreadyAtRoot => []
  | actionsNotQueued reason command => [("error", reason), ("command", command)]
  | functionFailed function reason => [("function", function), ("error", reason)]
  | countCapped function count max =>
    [("function", function), ("count", toString count), ("max", toString max)]
  | cursorPosition x y => [("x", toString x), ("y", toString y)]

end Notice

end SpokenCommand
