/-!
Events: what the outside is told about modes and phrases.

The depth of an event is the number of modes on top of the root after it.
-/

namespace SpokenCommand

/-- A change of the active modes, or the fate of a phrase. -/
inductive Event where
  | modeEntered (mode : String) (depth : Nat)
  | modeExited (mode : String) (depth : Nat)
  | exclusiveEntered (mode : String)
  | exclusiveExited (mode : String)
  | definitionsLoaded (modes commands : Nat)
  | reloadFailed (reason : String)
  | commandRecognized (command phrase : String)
  | phraseRejected (phrase : String)
deriving DecidableEq, Repr

/-- An event as a line of the log. -/
def Event.render : Event → String
  | modeEntered mode depth => s!"MODE_ENTERED {mode} (depth {depth})"
  | modeExited mode depth => s!"MODE_EXITED {mode} (depth {depth})"
  | exclusiveEntered mode => s!"EXCLUSIVE_ENTERED {mode}"
  | exclusiveExited mode => s!"EXCLUSIVE_EXITED {mode}"
  | definitionsLoaded modes commands =>
    s!"DEFINITIONS_LOADED ({modes} modes, {commands} commands)"
  | reloadFailed reason => s!"RELOAD_FAILED: {reason}"
  | commandRecognized command _ => s!"COMMAND_RECOGNIZED >>> {command}"
  | phraseRejected phrase => s!"PHRASE_REJECTED {phrase}"

end SpokenCommand
