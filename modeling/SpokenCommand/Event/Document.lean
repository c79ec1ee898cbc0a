import SpokenCommand.Event
import SpokenCommand.Json.Magnitude
import SpokenCommand.Json.Reader
/-!
Events as JSON.

An event is an object with its kind under `type` and its details under their names, in any order, or
an array of its kind and its details.  The whole text is read before the kind is known, so that
members of other names are passed over but must be readable.  A detail that counts something is a
natural number of 64 bits, spelled without point and exponent.
-/

namespace SpokenCommand

open Json

/-- How deep the containers of an event may be nested. -/
def Event.maxDepth : Nat := 127

/-- What a detail of an event has to be. -/
inductive DetailKind where
  | text
  | count
deriving DecidableEq, Repr

/-- The details of an event by kind: their names and what they are, in order. -/
def Event.details? : String → Option (List (String × DetailKind))
  | "mode_entered" => some [("mode", .text), ("depth", .count)]
  | "mode_exited" => some [("mode", .text), ("depth", .count)]
  | "exclusive_entered" => some [("mode", .text)]
  | "exclusive_exited" => some [("mode", .text)]
  | "definitions_loaded" => some [("modes", .count), ("commands", .count)]
  | "reload_failed" => some [("reason", .text)]
  | "command_recognized" => some [("command", .text), ("phrase", .text)]
  | "phrase_rejected" => some [("phrase", .text)]
  | _ => none

/-- A detail that was read. -/
inductive Detail where
  | text (text : String)
  | count (count : Nat)

/-- A value as a detail. -/
def Detail.read (kind : DetailKind) (value : Value) : Option Detail :=
  match kind, value with
  | .text, .string pieces => (textOf? pieces).map Detail.text
  | .count, .number n => n.natural?.map Detail.count
  | _, _ => none

/-- The event of a kind and its details. -/
def Event.ofDetails? : String → List Detail → Option Event
  | "mode_entered", [.text mode, .count depth] => some (.modeEntered mode depth)
  | "mode_exited", [.text mode, .count depth] => some (.modeExited mode depth)
  | "exclusive_entered", [.text mode] => some (.exclusiveEntered mode)
  | "exclusive_exited", [.text mode] => some (.exclusiveExited mode)
  | "definitions_loaded", [.count modes, .count commands] =>
    some (.definitionsLoaded modes commands)
  | "reload_failed", [.text reason] => some (.reloadFailed reason)
  | "command_recognized", [.text command, .text phrase] => some (.commandRecognized command phrase)
  | "phrase_rejected", [.text phrase] => some (.phraseRejected phrase)
  | _, _ => none

/-- The only value among named ones that has a name. -/
def theOnly? (name : String) (members : List (String × Value)) : Option Value :=
  match members.filter fun (key, _) => key = name with
  | [(_, value)] => some value
  | _ => none

/-- The event of an object. -/
def Event.ofMembers? (members : List (String × Value)) : Option Event := do
  let kind ← (← theOnly? "type" members).text?
  let details ← Event.details? kind
  let read ← details.mapM fun (name, kind) => do Detail.read kind (← theOnly? name members)
  Event.ofDetails? kind read

/-- The event of an array. -/
def Event.ofItems? (items : List Value) : Option Event :=
  match items with
  | [] => none
  | kind :: values => do
    let kind ← kind.text?
    let details ← Event.details? kind
    if details.length ≠ values.length then none
    let read ← (details.zip values).mapM fun ((_, kind), value) => Detail.read kind value
    Event.ofDetails? kind read

/-- The event that a JSON text describes. -/
def Event.ofText? (text : String) : Option Event := do
  let value ← read text
  if !value.isReadable Event.maxDepth then none
  match value with
  | .object members => do
    let named ← members.mapM fun (key, value) => do return (← textOf? key, value)
    Event.ofMembers? named
  | .array items => Event.ofItems? items
  | _ => none

end SpokenCommand
