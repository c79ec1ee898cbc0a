import SpokenCommand.Session.Basic
import SpokenCommand.Settings
/-!
A whole run of the program.

The definitions are loaded once before the first phrase, and a run whose first load fails ends there,
as does one that breaks down over it.  What was loaded once can be loaded again, so that the same file
does not break it down later.
The phrases are those of the command line or, without any, the lines of the input that are not
blank.  Playback is a DRY RUN: every primitive becomes a line of the log, and waiting none.
-/

namespace SpokenCommand

open Playback

/-- What a run left in the log, and its exit code. -/
structure Transcript where
  exitCode : Nat
  events : List Event
  played : List Primitive

/-- A primitive as a line of the log. -/
def Playback.Primitive.logLine? : Primitive → Option String
  | .typeText text => some ("type text text=" ++ Text.quoteText text)
  | .keyDown key => some s!"key down key={key.name}"
  | .keyUp key => some s!"key up key={key.name}"
  | .keyPress key => some s!"key press key={key.name}"
  | .moveCursor target => some s!"move cursor x={target.x} y={target.y}"
  | .click button => some s!"mouse click button={button.name}"
  | .sleep _ => none

/-- The lines of an input that follow `line`, the part of a line already read.  A line ends with a
    line feed, and a carriage return before it does not belong to it. -/
def linesFrom (line : List Char) : List Char → List (List Char)
  | [] => if line.isEmpty then [] else [withoutReturn line]
  | c :: rest =>
    if c = '\n' then withoutReturn line :: linesFrom [] rest else linesFrom (line ++ [c]) rest
where
  /-- A line without the carriage return at its end. -/
  withoutReturn (line : List Char) : List Char :=
    if line.getLast? = some '\r' then line.dropLast else line

/-- The phrases of an input: its lines that are not blank. -/
def inputPhrases (input : String) : List String :=
  ((linesFrom [] input.toList).filter fun line => !line.all Text.isBlank).map String.ofList

namespace Session

/-- A session with its playback at the middle of nothing, on a screen of a given size. -/
def onScreen (size : Size) : Session := start ⟨⟨0, 0⟩, size⟩

/-- Handle phrases in turn, each after the one before was played, and gather the events. -/
def handleAll (s : Session) (file : FileContent) : List String → Session × List Event
  | [] => (s, [])
  | phrase :: rest =>
    let r := s.handlePhrase file phrase
    let (s, events) := r.state.drain.handleAll file rest
    (s, r.events ++ events)

end Session

/-- The exit code of a run that breaks down. -/
def breakdownCode : Nat := 101

/-- A run with given settings. -/
def Settings.run (settings : Settings) (file : FileContent) (input : String) : Transcript :=
  if Session.breaksDownOn file then ⟨breakdownCode, [], []⟩
  else
    let loaded := (Session.onScreen settings.screen).load file
    match loaded.result with
    | .error _ => ⟨1, [], []⟩
    | .ok _ =>
      let phrases := if settings.isEmulated then settings.phrases else inputPhrases input
      let (s, events) := loaded.state.handleAll file phrases
      ⟨0, loaded.events ++ events, s.shutdown.worker.played.toList⟩

/-- A run from its command line, its environment, its input and the files that it may read. -/
def transcript (arguments : List String) (env : Environment) (readFile : String → FileContent)
    (input : String) : Transcript :=
  match Settings.load arguments env with
  | .error e => ⟨e.exitCode, [], []⟩
  | .ok settings => settings.run (readFile settings.definitions) input

end SpokenCommand
