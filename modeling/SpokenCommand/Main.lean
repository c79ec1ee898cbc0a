import SpokenCommand.Daemon
/-!
The program: a daemon that turns spoken phrases into keystrokes and mouse actions, as a dry run.

Phrases come from the command line, for trying out a definitions file, or line by line from the
input.  Every primitive, event and notice becomes a line of the log on standard output; a pause in a
script and the pause between phrases are waited for.  All decisions are made by `Session` and
`Settings`; here is only what reads, prints and waits.
-/

namespace SpokenCommand.Main

open Playback

/-- What is shown when help is asked for. -/
def usage : String :=
  "Voice command daemon\n\nUsage: voicecoder [OPTIONS] <DEFINITIONS> [PHRASES]...\n\n"
    ++ "Arguments:\n  <DEFINITIONS>  Path to the definitions file\n"
    ++ "  [PHRASES]...   Phrases to run through the compiled grammars instead of live input\n\n"
    ++ "Options:\n  -v, --verbose  Enable debug logging\n  -h, --help     Print help\n"
    ++ "  -V, --version  Print version"

/-- The content of the definitions file at this moment. -/
def readFile (path : String) : IO FileContent := do
  try
    return some (← IO.FS.readBinFile path)
  catch _ =>
    return none

/-- One line of the log. -/
def logLine (level : Level) (text : String) : IO Unit := do
  let output ← IO.getStdout
  output.putStrLn (level.name ++ " " ++ text)
  output.flush

/-- Log a notice with its details. -/
def logNotice (n : Notice) : IO Unit :=
  logLine n.level (n.message
    ++ String.join (n.fields.map fun (name, value) => " " ++ name ++ "=" ++ Text.quoteText value))

/-- Log what was played, and wait where the script waits. -/
def logPlayed (p : Primitive) : IO Unit :=
  match p, p.logLine? with
  | .sleep ms, _ => IO.sleep ms.toUInt32
  | _, some line => logLine .info line
  | _, none => pure ()

/-- Log the outcome of an operation and what playback made of it, and hand on the session. -/
def report {α : Type} (r : Reaction Session α) : IO Session := do
  for event in r.events do
    logLine .info ("state event event=" ++ event.render)
  for notice in r.notices do
    logNotice notice
  let (played, worker) := r.state.drain.worker.takePlayed
  for p in played do
    logPlayed p
  return { r.state with worker }

/-- Handle one phrase. -/
def handle (path : String) (s : Session) (phrase : String) : IO Session := do
  report (s.handlePhrase (← readFile path) phrase)

/-- Handle the phrases of the command line, with a pause after each. -/
def handlePhrases (settings : Settings) (s : Session) : List String → IO Session
  | [] => return s
  | phrase :: rest => do
    let s ← handle settings.definitions s phrase
    IO.sleep settings.delay.toUInt32
    handlePhrases settings s rest

/-- Handle the phrases of the input until it ends. -/
partial def handleInput (settings : Settings) (input : IO.FS.Stream) (s : Session) : IO Session := do
  let line ← input.getLine
  if line.isEmpty then return s
  match inputPhrases line with
  | phrase :: _ => handleInput settings input (← handle settings.definitions s phrase)
  | [] => handleInput settings input s

/-- Run with given settings, and return the exit code. -/
def run (settings : Settings) : IO UInt32 := do
  let file ← readFile settings.definitions
  if Session.breaksDownOn file then return breakdownCode.toUInt32
  let loaded := (Session.onScreen settings.screen).load file
  let s ← report loaded
  match loaded.result with
  | .error e =>
    logLine .error ("definitions are malformed, resolve the errors and re-run error=" ++ e.message)
    return 1
  | .ok _ =>
    let s ←
      if settings.isEmulated then handlePhrases settings s settings.phrases
      else handleInput settings (← IO.getStdin) s
    let _ ← report { state := s.shutdown, result := () : Reaction Session Unit }
    return 0

/-- Show why the program does not start. -/
def explain (e : SettingsError) : IO Unit :=
  match e with
  | .commandLine .displayHelp => IO.println usage
  | .commandLine .displayVersion => IO.println "voicecoder"
  | _ => IO.eprintln ("error: " ++ ": ".intercalate e.messages)

end SpokenCommand.Main

/-- The entry point: settings from the command line and the environment, then the run. -/
def main (arguments : List String) : IO UInt32 := do
  let env : SpokenCommand.Environment :=
    ⟨← IO.getEnv "VOICECODER_PHRASE_DELAY_MS", ← IO.getEnv "VOICECODER_SCREEN_SIZE"⟩
  match SpokenCommand.Settings.load arguments env with
  | .ok settings => SpokenCommand.Main.run settings
  | .error e =>
    SpokenCommand.Main.explain e
    return e.exitCode.toUInt32
