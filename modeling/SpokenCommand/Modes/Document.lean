import SpokenCommand.Json.Reader
import SpokenCommand.Modes.Definition
import SpokenCommand.Ordered
/-!
Definitions files.

A definitions file is a JSON object with the members `defines`, `commands` and `modes`, all optional;
a command is an object with `name`, `grammar`, `action` and `function`, of which the grammar is
required and the others may be null.  Either may also be an array of its members in that order.

Members of other names are passed over, whatever they hold.  One of these names may not come twice
in one object, while a template or a child mode of a repeated name replaces the earlier one in its
place.  What is read is nested at most `maxDepth` containers deep.
-/

namespace SpokenCommand.Modes

open Json

/-- How deep the containers of a definitions file may be nested. -/
def maxDepth : Nat := 127

/-- A text, or null for none. -/
def readOptionalText : Value → Option (Option String)
  | .null => some none
  | value => value.text?.map some

/-- The members of a command object read so far. -/
structure CommandMembers where
  name : Option (Option String) := none
  grammar : Option String := none
  action : Option (Option String) := none
  function : Option (Option String) := none

/-- The members of a command object after those already `seen`. -/
def readCommandMembers (seen : CommandMembers) :
    List (List Piece × Value) → Option CommandMembers
  | [] => some seen
  | (key, value) :: rest =>
    match textOf? key with
    | none => none
    | some "name" =>
      if seen.name.isSome then none
      else (readOptionalText value).bind fun t => readCommandMembers { seen with name := some t } rest
    | some "grammar" =>
      if seen.grammar.isSome then none
      else value.text?.bind fun t => readCommandMembers { seen with grammar := some t } rest
    | some "action" =>
      if seen.action.isSome then none
      else
        (readOptionalText value).bind fun t => readCommandMembers { seen with action := some t } rest
    | some "function" =>
      if seen.function.isSome then none
      else
        (readOptionalText value).bind fun t =>
          readCommandMembers { seen with function := some t } rest
    | some _ => readCommandMembers seen rest

/-- A command, while `depth` more containers may be opened. -/
def readCommand (depth : Nat) (value : Value) : Option CommandDefinition :=
  if depth = 0 then none
  else
    match value with
    | .object members => do
      let seen ← readCommandMembers {} members
      let grammar ← seen.grammar
      return ⟨seen.name.join, grammar, seen.action.join, seen.function.join⟩
    | .array [name, grammar] =>
      return ⟨← readOptionalText name, ← grammar.text?, none, none⟩
    | .array [name, grammar, action] =>
      return ⟨← readOptionalText name, ← grammar.text?, ← readOptionalText action, none⟩
    | .array [name, grammar, action, function] =>
      return ⟨← readOptionalText name, ← grammar.text?, ← readOptionalText action,
        ← readOptionalText function⟩
    | _ => none

/-- The commands of a mode. -/
def readCommands (depth : Nat) (value : Value) : Option (List CommandDefinition) :=
  if depth = 0 then none
  else
    match value with
    | .array items => items.mapM (readCommand (depth - 1))
    | _ => none

/-- Named texts, after those already `seen`. -/
def readTexts (seen : List (String × String)) :
    List (List Piece × Value) → Option (List (String × String))
  | [] => some seen
  | (key, value) :: rest => do
    let name ← textOf? key
    let text ← value.text?
    readTexts (Ordered.put name text seen) rest

/-- The templates of a mode. -/
def readDefines (depth : Nat) (value : Value) : Option (List (String × String)) :=
  if depth = 0 then none
  else
    match value with
    | .object members => readTexts [] members
    | _ => none

/-- The members of a mode object read so far. -/
structure ModeMembers where
  defines : Option (List (String × String)) := none
  commands : Option (List CommandDefinition) := none
  modes : Option (List (String × ModeDefinition)) := none

/-- The mode of its members; those that are missing hold nothing. -/
def ModeMembers.toDefinition (m : ModeMembers) : ModeDefinition :=
  ⟨m.defines.getD [], m.commands.getD [], m.modes.getD []⟩

mutual

/-- A mode, while `depth` more containers may be opened. -/
def readMode (depth : Nat) : Value → Option ModeDefinition
  | .object members =>
    if depth = 0 then none
    else (readModeMembers (depth - 1) {} members).map ModeMembers.toDefinition
  | .array items => if depth = 0 then none else readModeItems (depth - 1) items
  | _ => none

/-- The members of a mode object after those already `seen`. -/
def readModeMembers (depth : Nat) (seen : ModeMembers) :
    List (List Piece × Value) → Option ModeMembers
  | [] => some seen
  | (key, value) :: rest =>
    match textOf? key with
    | none => none
    | some "defines" =>
      if seen.defines.isSome then none
      else
        (readDefines depth value).bind fun d =>
          readModeMembers depth { seen with defines := some d } rest
    | some "commands" =>
      if seen.commands.isSome then none
      else
        (readCommands depth value).bind fun c =>
          readModeMembers depth { seen with commands := some c } rest
    | some "modes" =>
      if seen.modes.isSome then none
      else
        (readModes depth value).bind fun m =>
          readModeMembers depth { seen with modes := some m } rest
    | some _ => readModeMembers depth seen rest

/-- A mode whose members are given in order. -/
def readModeItems (depth : Nat) : List Value → Option ModeDefinition
  | [] => some .empty
  | [defines] => do return ⟨← readDefines depth defines, [], []⟩
  | [defines, commands] => do
    return ⟨← readDefines depth defines, ← readCommands depth commands, []⟩
  | [defines, commands, modes] => do
    return ⟨← readDefines depth defines, ← readCommands depth commands, ← readModes depth modes⟩
  | _ => none

/-- The child modes of a mode. -/
def readModes (depth : Nat) : Value → Option (List (String × ModeDefinition))
  | .object members => if depth = 0 then none else readChildren (depth - 1) [] members
  | _ => none

/-- Named modes, after those already `seen`. -/
def readChildren (depth : Nat) (seen : List (String × ModeDefinition)) :
    List (List Piece × Value) → Option (List (String × ModeDefinition))
  | [] => some seen
  | (key, value) :: rest =>
    match textOf? key with
    | none => none
    | some name =>
      (readMode depth value).bind fun m => readChildren depth (Ordered.put name m seen) rest

end

/-- A member of an object. -/
def member (key : String) (value : Value) : List Piece × Value := (key.toList.map pieceOf, value)

/-- A command as JSON; what is not given is left out. -/
def CommandDefinition.toJson (c : CommandDefinition) : Value :=
  let given (key : String) (text : Option String) : List (List Piece × Value) :=
    text.toList.map fun t => member key (.ofText t)
  .object (given "name" c.name ++ given "grammar" (some c.grammar) ++ given "action" c.action
    ++ given "function" c.function)

mutual

/-- A mode as JSON; all three members are written. -/
def ModeDefinition.toJson : ModeDefinition → Value
  | ⟨defines, commands, modes⟩ =>
    .object [
      member "defines" (.object (defines.map fun (name, text) => member name (.ofText text))),
      member "commands" (.array (commands.map CommandDefinition.toJson)),
      member "modes" (.object (childrenToJson modes))]

/-- Child modes as members of an object. -/
def childrenToJson : List (String × ModeDefinition) → List (List Piece × Value)
  | [] => []
  | (name, mode) :: rest => member name mode.toJson :: childrenToJson rest

end

/-- The mode that a definitions file describes. -/
def ModeDefinition.ofText? (text : String) : Option ModeDefinition :=
  (read text).bind (readMode maxDepth)

/-- A mode as the compact text of a definitions file. -/
def ModeDefinition.toText (mode : ModeDefinition) : String := String.ofList mode.toJson.render

end SpokenCommand.Modes
