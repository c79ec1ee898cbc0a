import SpokenCommand.Modes.Tree
import SpokenCommand.Reaction
import SpokenCommand.Recognizer
/-!
The activation engine: which modes are active.

The root mode is always active, and on top of it the innermost of the modes that were entered; the
grammars of exactly these modes are enabled.  An EXCLUSIVE OVERLAY suppresses both in favour of one
other mode until it is lifted.

Definitions are loaded as a whole: they replace tree, templates, stack and overlay, or, if they do
not compile, nothing.  Every other operation that cannot be carried out leaves the engine as it is
as well, and says why.
-/

namespace SpokenCommand

open Modes

/-- A mode that is active in place of others. -/
structure Overlay where
  target : ModeId
  /-- The modes that were suppressed when the overlay was put on. -/
  suppressed : List ModeId
deriving DecidableEq, Repr

/-- The activation engine. -/
structure Engine where
  tree : Tree
  templates : Grammar.Templates
  recognizer : Recognizer
  /-- The modes entered on top of the root, innermost first. -/
  stack : List ModeId
  overlay : Option Overlay

/-- Where the engine is. -/
inductive EngineState where
  | root
  | /-- That many modes are stacked on the root. -/
    nested (depth : Nat)
  | exclusiveOverride
deriving DecidableEq, Repr

/-- The name of a state. -/
def EngineState.render : EngineState → String
  | root => "Root"
  | nested depth => s!"Nested({depth})"
  | exclusiveOverride => "ExclusiveOverride"

/-- Why a mode is not entered or left. -/
inductive NavigationError where
  | /-- The current mode has no such child; the name is in lowercase. -/
    unknownMode (name : String)
  | /-- No mode was entered. -/
    atRoot
deriving DecidableEq, Repr

/-- The wording of an error. -/
def NavigationError.message : NavigationError → String
  | unknownMode name => s!"cannot find mode to change to: {name}"
  | atRoot => "cannot exit from global mode"

/-- Why an overlay is not put on or lifted. -/
inductive OverlayError where
  | alreadyActive
  | notActive
deriving DecidableEq, Repr

/-- The wording of an error. -/
def OverlayError.message : OverlayError → String
  | alreadyActive => "exclusive mode is already active"
  | notActive => "not in exclusive mode"

namespace Engine

/-- An engine with nothing loaded. -/
def empty : Engine :=
  { tree := .empty, templates := .builtin, recognizer := .empty, stack := [], overlay := none }

/-! ## What is the case -/

/-- The innermost active mode, or the root. -/
def current (e : Engine) : ModeId := e.stack.head?.getD Tree.root

/-- The depth of the stack and the overlay, summed up. -/
def state (e : Engine) : EngineState :=
  match e.overlay, e.stack with
  | some _, _ => .exclusiveOverride
  | none, [] => .root
  | none, stack => .nested stack.length

/-- The target of the overlay. -/
def exclusiveTarget (e : Engine) : Option ModeId := e.overlay.map (·.target)

/-- The enabled grammars, in the order of loading. -/
def enabled (e : Engine) : List GrammarId := e.recognizer.enabled

/-- The command that a phrase is recognized as. -/
def recognize (e : Engine) (phrase : String) : Option Command :=
  (e.recognizer.recognize phrase).bind e.tree.command?

/-! ## What can be done -/

/-- Switch all grammars of a mode on or off. -/
def setModeEnabled (e : Engine) (mode : ModeId) (isEnabled : Bool) : Engine :=
  { e with recognizer := e.recognizer.setAllEnabled (e.tree.grammars mode) isEnabled }

/-- Switch all grammars of several modes on or off. -/
def setModesEnabled (e : Engine) (modes : List ModeId) (isEnabled : Bool) : Engine :=
  modes.foldl (fun e mode => e.setModeEnabled mode isEnabled) e

/-- A recognizer that holds the grammars of a tree, mode by mode in preorder, all disabled. -/
def loadAll (tree : Tree) : Recognizer :=
  (tree.preorder.flatMap tree.grammars).foldl
    (fun r id =>
      match tree.command? id with
      | some command => r.load id command.grammar
      | none => r)
    .empty

/-- Make a tree live in place of the one before: its grammars are loaded instead of those, and only the
    root is active. -/
def install (e : Engine) (tree : Tree) : Engine :=
  setModeEnabled { e with tree, recognizer := loadAll tree, stack := [], overlay := none } Tree.root
    true

/-- Compile definitions and make them live, or keep everything as it is. -/
def load (e : Engine) (definition : ModeDefinition) : Reaction Engine (Except LoadError Unit) :=
  match Tree.compile .builtin definition with
  | (.ok tree, w) =>
    { state := { e with templates := w.templates }.install tree, result := .ok ()
      notices := w.notices
      events := [.definitionsLoaded tree.modes.length tree.commands.length] }
  | (.error err, w) =>
    { state := e, result := .error err, notices := w.notices ++ [.definitionsRejected err.message]
      events := [.reloadFailed err.message] }

/-- Enter the child of the current mode that has a name, and return its number. -/
def changeMode (e : Engine) (name : String) : Reaction Engine (Except NavigationError ModeId) :=
  match e.tree.child? e.current name with
  | none =>
    { state := e, result := .error (.unknownMode (Text.lowercase name))
      notices := [.modeNotFound name] }
  | some target =>
    let covered := if e.current = Tree.root then e else e.setModeEnabled e.current false
    let entered := { covered with stack := target :: covered.stack }.setModeEnabled target true
    { state := entered, result := .ok target
      events := [.modeEntered (e.tree.modeName target) entered.stack.length] }

/-- Leave the innermost mode, and return the number of the one below. -/
def exitMode (e : Engine) : Reaction Engine (Except NavigationError ModeId) :=
  match e.stack with
  | [] => { state := e, result := .error .atRoot, notices := [.alreadyAtRoot] }
  | left :: below =>
    let dropped := { e with stack := below }.setModeEnabled left false
    { state := dropped.setModeEnabled dropped.current true, result := .ok dropped.current
      events := [.modeExited (e.tree.modeName left) below.length] }

/-- The modes that an overlay suppresses: the root and the current mode. -/
def suppressible (e : Engine) : List ModeId :=
  if e.current = Tree.root then [Tree.root] else [Tree.root, e.current]

/-- Put on an overlay. -/
def enterExclusive (e : Engine) (target : ModeId) : Reaction Engine (Except OverlayError Unit) :=
  match e.overlay with
  | some _ => { state := e, result := .error .alreadyActive }
  | none =>
    let covered := (e.setModesEnabled e.suppressible false).setModeEnabled target true
    { state := { covered with overlay := some ⟨target, e.suppressible⟩ }, result := .ok ()
      events := [.exclusiveEntered (e.tree.modeName target)] }

/-- Lift the overlay: enable again what it suppressed, and disable a target. -/
def exitExclusive (e : Engine) (target : ModeId) : Reaction Engine (Except OverlayError Unit) :=
  match e.overlay with
  | none => { state := e, result := .error .notActive }
  | some overlay =>
    let lifted :=
      ({ e with overlay := none }.setModesEnabled overlay.suppressed true).setModeEnabled target
        false
    { state := lifted, result := .ok (), events := [.exclusiveExited (e.tree.modeName target)] }

end Engine

end SpokenCommand
