import SpokenCommand.Modes.Document
import SpokenCommand.Session.Request
/-!
A session: phrases in, actions and changes of mode out.

A phrase is matched against the enabled grammars.  The command that is recognized plays its actions,
then runs its function, and a reload that the function asked for comes last, after playback has
caught up.  While the session is MUTED it listens to one phrase only, the one that wakes it.

The steps that were played last on behalf of a command, or by naming keys, are remembered so that
they can be repeated; a successful load forgets them.

The definitions file is read at every load.  Its content is handed to the operations that may load:
the bytes of the file, or nothing when there is no file.
-/

namespace SpokenCommand

open Modes Playback Script

/-- The content of the definitions file, if it can be read. -/
abbrev FileContent := Option ByteArray

/-- A session. -/
structure Session where
  engine : Engine
  worker : Worker
  isMuted : Bool
  /-- The steps to repeat. -/
  lastSteps : List Step

/-- What happened to a phrase. -/
inductive Dispatch where
  | /-- Ignored because the session is muted. -/
    muted
  | /-- No enabled command matched. -/
    rejected
  | recognized (command : String)
deriving DecidableEq, Repr

namespace Session

/-- The words that wake a muted session. -/
def wakeWords : List String := ["voice", "code", "start"]

/-- The words of a phrase in lowercase. -/
def lowerWords (phrase : String) : List String := (Text.words phrase).map Text.lowercase

/-- A session in which nothing is loaded. -/
def start (screen : ScreenState) : Session :=
  { engine := .empty, worker := .start screen, isMuted := false, lastSteps := [] }

/-! ## Definitions -/

/-- The mode that the content of a file describes. -/
def readDefinitions (file : FileContent) : Except LoadError ModeDefinition :=
  match file with
  | none => .error .unreadable
  | some bytes =>
    match String.fromUTF8? bytes with
    | none => .error .unreadable
    | some text =>
      match ModeDefinition.ofText? text with
      | none => .error .malformed
      | some definition => .ok definition

/-- Whether the program breaks down when it loads a file. -/
def breaksDownOn (file : FileContent) : Bool :=
  match readDefinitions file with
  | .ok definition => Tree.breaksDown .builtin definition
  | .error _ => false

/-- Read the definitions and make them live, or keep everything as it is. -/
def load (s : Session) (file : FileContent) : Reaction Session (Except LoadError Unit) :=
  match readDefinitions file with
  | .error e => { state := s, result := .error e, events := [.reloadFailed e.message] }
  | .ok definition =>
    let r := s.engine.load definition
    match r.result with
    | .error _ => r.within fun engine => { s with engine }
    | .ok _ => r.within fun engine => { s with engine, lastSteps := [] }

/-- Wait until everything submitted is played. -/
def drain (s : Session) : Session := { s with worker := s.worker.drain }

/-- Load the definitions again after everything submitted is played. -/
def reload (s : Session) (file : FileContent) : Reaction Session Unit :=
  (s.drain.load file).andThen fun s result =>
    match result with
    | .ok _ => { state := s, result := () }
    | .error e => { state := s, result := (), notices := [.reloadFailed e.message] }

/-- Play what is left and accept no more. -/
def shutdown (s : Session) : Session := { s with worker := s.worker.shutdown }

/-! ## Playback -/

/-- Play steps without remembering them. -/
def play (s : Session) (steps : List Step) : Session × Except Refusal Unit :=
  let (worker, result) := s.worker.submit steps
  ({ s with worker }, result)

/-- Play steps and remember them. -/
def playAndRemember (s : Session) (steps : List Step) : Session × Except Refusal Unit :=
  { s with lastSteps := steps }.play steps

/-- Play the remembered steps again. -/
def repeatLast (s : Session) : Session × Except Refusal Unit := s.play s.lastSteps

/-- Play the remembered steps some more times, until it is refused. -/
def repeatTimes (s : Session) : Nat → Session × Except Refusal Unit
  | 0 => (s, .ok ())
  | n + 1 =>
    match s.repeatLast with
    | (s, .ok _) => s.repeatTimes n
    | (s, .error e) => (s, .error e)

/-- The outcome of playing, as that of a function. -/
def ofPlay (outcome : Session × Except Refusal Unit) :
    Reaction Session (Except FunctionError Unit) :=
  { state := outcome.1
    result :=
      match outcome.2 with
      | .ok _ => .ok ()
      | .error e => .error (.playback e) }

/-! ## Requests -/

/-- The outcome of an operation on the engine, whatever its answer, as that of a function. -/
def ofEngine {α : Type} (s : Session) (r : Reaction Engine α) :
    Reaction Session (Except FunctionError Unit) :=
  (r.within fun engine => { s with engine }).mapResult fun _ => .ok ()

/-- The outcome of an operation on the overlay, as that of a function. -/
def ofOverlay (s : Session) (r : Reaction Engine (Except OverlayError Unit)) :
    Reaction Session (Except FunctionError Unit) :=
  (r.within fun engine => { s with engine }).mapResult fun
    | .ok _ => .ok ()
    | .error e => .error (.overlay e)

/-- Do what was requested.  A reload waits until the function has ended and is not done here. -/
def perform (s : Session) : Request → Reaction Session (Except FunctionError Unit)
  | .setMuted isMuted => { state := { s with isMuted }, result := .ok () }
  | .changeMode name => s.ofEngine (s.engine.changeMode name)
  | .exitMode => s.ofEngine s.engine.exitMode
  | .switchSibling name => s.ofEngine (s.engine.exitMode.andThen fun e _ => e.changeMode name)
  | .enterExclusive name =>
    match s.engine.tree.find? name with
    | none => { state := s, result := .error (.unknownMode name) }
    | some target => s.ofOverlay (s.engine.enterExclusive target)
  | .exitExclusive =>
    match s.engine.exclusiveTarget with
    | none => { state := s, result := .error (.overlay .notActive) }
    | some target => s.ofOverlay (s.engine.exitExclusive target)
  | .reload => { state := s, result := .ok () }
  | .repeatLast times => ofPlay (s.repeatTimes times)
  | .play steps => ofPlay (s.play steps)
  | .playAndRemember steps => ofPlay (s.playAndRemember steps)
  | .reportCursor =>
    let cursor := s.worker.shown.cursor
    { state := s, result := .ok (), notices := [.cursorPosition cursor.x cursor.y] }

/-- Run a function on words in lowercase, and answer whether it asked for a reload. -/
def runFunction (s : Session) (function : Builtin) (words : List String) :
    Reaction Session (Except FunctionError Bool) :=
  match interpret s.worker.shown.size words function with
  | .error e => { state := s, result := .error e }
  | .ok ⟨request, notices⟩ =>
    let r := s.perform request
    { state := r.state, result := r.result.map fun _ => request == .reload, events := r.events
      notices := notices ++ r.notices }

/-! ## Phrases -/

/-- Play the actions of a command, if it has any. -/
def runActions (s : Session) (command : Command) : Reaction Session Unit :=
  if command.actions.isEmpty then { state := s, result := () }
  else
    match s.playAndRemember command.actions with
    | (s, .ok _) => { state := s, result := () }
    | (s, .error e) =>
      { state := s, result := (), notices := [.actionsNotQueued e.message command.name] }

/-- Run the function of a command, if it has one, and answer whether it asked for a reload. -/
def runFunctionOf (s : Session) (command : Command) (words : List String) :
    Reaction Session Bool :=
  match command.function with
  | none => { state := s, result := false }
  | some function =>
    (s.runFunction function words).andThen fun s result =>
      match result with
      | .ok wantsReload => { state := s, result := wantsReload }
      | .error e =>
        { state := s, result := false, notices := [.functionFailed function.name e.message] }

/-- Carry out a recognized command. -/
def carryOut (s : Session) (file : FileContent) (command : Command) (words : List String) :
    Reaction Session Unit :=
  (s.runActions command).andThen fun s _ =>
    (s.runFunctionOf command words).andThen fun s wantsReload =>
      if wantsReload then s.reload file else { state := s, result := () }

/-- Recognize a phrase and carry out its command. -/
def handlePhrase (s : Session) (file : FileContent) (spoken : String) : Reaction Session Dispatch :=
  let phrase := Text.trim spoken
  let words := lowerWords phrase
  if s.isMuted && words != wakeWords then { state := s, result := .muted }
  else
    match s.engine.recognize phrase with
    | none => { state := s, result := .rejected, events := [.phraseRejected phrase] }
    | some command =>
      let r := s.carryOut file command words
      { state := r.state, result := .recognized command.name, notices := r.notices
        events := .commandRecognized command.name phrase :: r.events }

end Session

end SpokenCommand
