/-!
The command line: `[-v | --verbose] DEFINITIONS [PHRASE]…`.

Arguments are taken from left to right.  One that begins with a dash is a flag, unless it is a lone
dash or comes after `--`; short flags may be written together.  The first positional argument is the
path of the definitions file, which must not be empty, and all others are phrases, which may.

The path is CHECKED LATE: when the next positional argument or the next flag that is known takes
effect, or at the end.  A flag that is unknown, or that has a value attached, is refused before
that.
-/

namespace SpokenCommand

/-- Why the command line does not start the program. -/
inductive CommandLineError where
  | displayHelp
  | displayVersion
  | unknownArgument
  | tooManyValues
  | invalidValue
  | missingRequiredArgument
  | argumentConflict
deriving DecidableEq, Repr

/-- The name of an error. -/
def CommandLineError.name : CommandLineError → String
  | displayHelp => "DisplayHelp"
  | displayVersion => "DisplayVersion"
  | unknownArgument => "UnknownArgument"
  | tooManyValues => "TooManyValues"
  | invalidValue => "InvalidValue"
  | missingRequiredArgument => "MissingRequiredArgument"
  | argumentConflict => "ArgumentConflict"

/-- The exit code of the program after an error: asking for help is none. -/
def CommandLineError.exitCode : CommandLineError → Nat
  | displayHelp => 0
  | displayVersion => 0
  | _ => 2

/-- The flags. -/
inductive Flag where
  | verbose
  | help
  | version
deriving DecidableEq, Repr

/-- The flag of a long name. -/
def Flag.ofLong? : String → Option Flag
  | "verbose" => some verbose
  | "help" => some help
  | "version" => some version
  | _ => none

/-- The flag of a letter. -/
def Flag.ofShort? : Char → Option Flag
  | 'v' => some verbose
  | 'h' => some help
  | 'V' => some version
  | _ => none

/-- A command line, complete or read up to some argument. -/
structure CommandLine where
  /-- The path of the definitions file. -/
  definitions : Option String
  phrases : List String
  isVerbose : Bool
deriving DecidableEq, Repr

namespace CommandLine

/-- A command line without arguments. -/
def empty : CommandLine := ⟨none, [], false⟩

/-- Refuse an empty path. -/
def checkPath (line : CommandLine) : Except CommandLineError Unit :=
  if line.definitions = some "" then .error .invalidValue else .ok ()

/-- A flag takes effect. -/
def addFlag (line : CommandLine) (flag : Flag) : Except CommandLineError CommandLine := do
  line.checkPath
  match flag with
  | .help => throw .displayHelp
  | .version => throw .displayVersion
  | .verbose => if line.isVerbose then throw .argumentConflict else return { line with isVerbose := true }

/-- The letters of short flags take effect in turn. -/
def addShort (line : CommandLine) : List Char → Except CommandLineError CommandLine
  | [] => .ok line
  | c :: rest =>
    match Flag.ofShort? c with
    | none => .error .unknownArgument
    | some flag => do (← line.addFlag flag).addShort rest

/-- A long flag, written as its name and perhaps a value after an equals sign. -/
def addLong (line : CommandLine) (text : List Char) : Except CommandLineError CommandLine :=
  match Flag.ofLong? (String.ofList (text.takeWhile (· ≠ '='))) with
  | none => .error .unknownArgument
  | some flag => if text.contains '=' then .error .tooManyValues else line.addFlag flag

/-- A positional argument: the path, if there is none yet, or a phrase. -/
def addPositional (line : CommandLine) (text : String) : Except CommandLineError CommandLine :=
  match line.definitions with
  | none => .ok { line with definitions := some text }
  | some _ => do
    line.checkPath
    return { line with phrases := line.phrases ++ [text] }

/-- The arguments after `--`. -/
def addPositionals (line : CommandLine) : List String → Except CommandLineError CommandLine
  | [] => .ok line
  | text :: rest => do (← line.addPositional text).addPositionals rest

/-- The arguments after those already read. -/
def addAll (line : CommandLine) : List String → Except CommandLineError CommandLine
  | [] => .ok line
  | argument :: rest =>
    match argument.toList with
    | ['-', '-'] => line.addPositionals rest
    | '-' :: '-' :: name => do (← line.addLong name).addAll rest
    | '-' :: c :: letters => do (← line.addShort (c :: letters)).addAll rest
    | _ => do (← line.addPositional argument).addAll rest

/-- The command line of all arguments after the name of the program. -/
def parse (arguments : List String) : Except CommandLineError CommandLine := do
  let line ← empty.addAll arguments
  line.checkPath
  if line.definitions.isNone then throw .missingRequiredArgument
  return line

end CommandLine

end SpokenCommand
