import SpokenCommand.CommandLine
import SpokenCommand.Playback.Replay
import SpokenCommand.Text.Blank
import SpokenCommand.Text.Integer
/-!
Settings: the command line together with two variables of the environment.

The pause between phrases is a number of milliseconds, and the size of the screen is written as
`1920x1080`.  The command line is looked at first, then the pause, then the size.
-/

namespace SpokenCommand

open Playback

/-- The variables of the environment; none when a variable is not set. -/
structure Environment where
  phraseDelay : Option String
  screenSize : Option String

/-- What the program runs with. -/
structure Settings where
  definitions : String
  /-- The phrases to run; when there are none, phrases are read from the input. -/
  phrases : List String
  delay : Nat
  screen : Size
  isVerbose : Bool
deriving DecidableEq, Repr

/-- Why a size is not one. -/
inductive SizeError where
  | /-- The text, as it was given, has no separator. -/
    missingSeparator (text : String)
  | /-- One of the numbers is none. -/
    notAnInteger (cause : Text.IntegerError)
  | /-- One of the numbers, in the text as it was given, is not positive. -/
    notPositive (text : String)
deriving DecidableEq, Repr

/-- The wording of an error. -/
def SizeError.message : SizeError → String
  | missingSeparator text => s!"missing `x` separator in `{text}`"
  | notAnInteger cause => cause.message
  | notPositive text => s!"screen size `{text}` must be positive"

/-- Why there are no settings to run with. -/
inductive SettingsError where
  | commandLine (cause : CommandLineError)
  | delay (cause : Text.IntegerError)
  | screen (cause : SizeError)
deriving DecidableEq, Repr

/-- The wording of an error and of its cause. -/
def SettingsError.messages : SettingsError → List String
  | commandLine cause => [cause.name]
  | delay cause =>
    ["VOICECODER_PHRASE_DELAY_MS must be a number of milliseconds", cause.message]
  | screen cause => ["VOICECODER_SCREEN_SIZE must look like 1920x1080", cause.message]

/-- The exit code of the program after an error. -/
def SettingsError.exitCode : SettingsError → Nat
  | commandLine cause => cause.exitCode
  | _ => 1

/-- The pause in milliseconds when none is set. -/
def defaultDelay : Nat := 250

/-- The size of the screen when none is set. -/
def defaultScreen : Size := ⟨1920, 1080⟩

/-- One side of a size. -/
def readSide (text : String) : Except SizeError Int :=
  match Text.integer32 (Text.trim text) with
  | .ok n => .ok n
  | .error cause => .error (.notAnInteger cause)

/-- The size that a text gives. -/
def readSize (text : String) : Except SizeError Size :=
  let isSeparator (c : Char) : Bool := c = 'x' || c = 'X'
  let cs := (Text.trim text).toList
  match cs.dropWhile fun c => !isSeparator c with
  | [] => .error (.missingSeparator text)
  | _ :: after => do
    let width ← readSide (String.ofList (cs.takeWhile fun c => !isSeparator c))
    let height ← readSide (String.ofList after)
    if width ≤ 0 ∨ height ≤ 0 then throw (.notPositive text)
    return ⟨width, height⟩

/-- The pause of an environment. -/
def Environment.delay (env : Environment) : Except SettingsError Nat :=
  match env.phraseDelay with
  | none => .ok defaultDelay
  | some text =>
    match Text.natural64 (Text.trim text) with
    | .ok n => .ok n
    | .error cause => .error (.delay cause)

/-- The size of the screen of an environment. -/
def Environment.screen (env : Environment) : Except SettingsError Size :=
  match env.screenSize with
  | none => .ok defaultScreen
  | some text =>
    match readSize text with
    | .ok size => .ok size
    | .error cause => .error (.screen cause)

namespace Settings

/-- The settings of a command line and an environment. -/
def load (arguments : List String) (env : Environment) : Except SettingsError Settings := do
  let line ←
    match CommandLine.parse arguments with
    | .ok line => .ok line
    | .error cause => .error (SettingsError.commandLine cause)
  let delay ← env.delay
  let screen ← env.screen
  return ⟨line.definitions.getD "", line.phrases, delay, screen, line.isVerbose⟩

/-- Whether phrases come from the command line. -/
def isEmulated (s : Settings) : Bool := !s.phrases.isEmpty

/-- How much is logged unless something else is asked for. -/
def logFilter (s : Settings) : String := if s.isVerbose then "debug" else "info"

end Settings

end SpokenCommand
