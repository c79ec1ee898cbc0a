import SpokenCommand.Builtin
import SpokenCommand.Grammar.Parser
import SpokenCommand.Modes.Definition
import SpokenCommand.Modes.LoadError
import SpokenCommand.Script.Parser
/-!
The tree of modes that definitions compile to.

Modes are NUMBERED in preorder, the root being mode 0, so that the modes below a mode follow it
directly.  Commands are numbered too, and a command has one grammar, which goes by the same number;
the commands of a mode come after all commands of the modes below it.  `compileMode` hands every
subtree the numbers from which its own modes and grammars start and returns both in order, so that a
subtree never sees another.

Templates accumulate over the whole tree in preorder.  Compiling stops at the first error, with the
templates and notices up to there.
-/

namespace SpokenCommand.Modes

/-- The number of a mode. -/
abbrev ModeId := Nat

/-- The number of a command and of its grammar. -/
abbrev GrammarId := Nat

/-- A compiled command. -/
structure Command where
  /-- The mode that the command belongs to. -/
  mode : ModeId
  name : String
  grammar : Grammar.Sequence
  /-- What is played when the command is recognized. -/
  actions : List Script.Step
  /-- The function that is run when the command is recognized. -/
  function : Option Builtin
deriving Repr

/-- A compiled mode. -/
structure Mode where
  /-- The name in lowercase; empty for the root. -/
  name : String
  parent : Option ModeId
  /-- The child modes under their names. -/
  children : List (String × ModeId)
  /-- The grammars of the mode's own commands, in the order of their definition. -/
  grammars : List GrammarId
deriving DecidableEq, Repr

/-- The name of a mode in events and logs. -/
def Mode.displayName (mode : Mode) : String :=
  if mode.name.isEmpty then "<global>" else mode.name

/-- A tree of modes, with its modes and commands in the order of their numbers. -/
structure Tree where
  modes : List Mode
  commands : List Command
deriving Repr

/-! ## Compiling -/

/-- What compiling builds up besides its result. -/
structure Workspace where
  templates : Grammar.Templates
  notices : List Notice

/-- A computation that builds up templates and notices and may stop with an error. -/
abbrev Compile (α : Type) := ExceptT LoadError (StateM Workspace) α

/-- Make known a notice. -/
def notify (notice : Notice) : Compile Unit :=
  modify fun w => { w with notices := w.notices ++ [notice] }

/-- File one template. -/
def compileDefine (name source : String) : Compile Unit := do
  let w ← get
  match w.templates.defineSource name source with
  | .error cause => throw (.define (Text.lowercase name) cause)
  | .ok (templates, notices) => set (⟨templates, w.notices ++ notices⟩ : Workspace)

/-- File templates in order. -/
def compileDefines : List (String × String) → Compile Unit
  | [] => pure ()
  | (name, source) :: rest => do
    compileDefine name source
    compileDefines rest

/-- The function that a command names.  A name that is no function's is only noticed. -/
def compileFunction (command : String) : Option String → Compile (Option Builtin)
  | none => pure none
  | some function =>
    match Builtin.ofName? function with
    | some b => pure (some b)
    | none => do
      notify (.functionNotFound function command)
      return none

/-- The actions of a command, which may be left out if the command has a function. -/
def compileActions (command : String) (function : Option Builtin) :
    Option String → Compile (List Script.Step)
  | some source =>
    match Script.parse source with
    | .ok steps => pure steps
    | .error cause => throw (.action command cause)
  | none => if function.isSome then pure [] else throw (.missingAction command)

/-- A command of a mode. -/
def compileCommand (mode : ModeId) (d : CommandDefinition) : Compile Command := do
  let name := d.name.getD d.grammar
  let w ← get
  match Grammar.parse w.templates d.grammar with
  | .error cause => throw (.grammar name cause)
  | .ok grammar =>
    let function ← compileFunction name d.function
    let actions ← compileActions name function d.action
    return ⟨mode, name, grammar, actions, function⟩

/-- The commands of a mode, in order. -/
def compileCommands (mode : ModeId) : List CommandDefinition → Compile (List Command)
  | [] => pure []
  | d :: rest => do
    let command ← compileCommand mode d
    let commands ← compileCommands mode rest
    return command :: commands

/-- The children of a mode, with all modes and commands below it in the order of their numbers. -/
structure Forest where
  children : List (String × ModeId)
  modes : List Mode
  commands : List Command

mutual

/-- The tree of a mode, which goes by the lowercase form of its name, when the next free numbers are
    `id` for modes and `grammar` for commands. -/
def compileMode (name : String) (parent : Option ModeId) (id : ModeId) (grammar : GrammarId) :
    ModeDefinition → Compile Tree
  | ⟨defines, commands, modes⟩ => do
    compileDefines defines
    let own ← compileCommands id commands
    let forest ← compileChildren id (id + 1) grammar [] modes
    let grammars := List.range' (grammar + forest.commands.length) own.length
    return ⟨⟨Text.lowercase name, parent, forest.children, grammars⟩ :: forest.modes,
      forest.commands ++ own⟩

/-- The trees of the children of a mode, where `taken` are the names of those before. -/
def compileChildren (parent : ModeId) (id : ModeId) (grammar : GrammarId) (taken : List String) :
    List (String × ModeDefinition) → Compile Forest
  | [] => pure ⟨[], [], []⟩
  | (name, definition) :: rest => do
    let key := Text.lowercase name
    if taken.contains key then throw (.duplicateMode key)
    let child ← compileMode key (some parent) id grammar definition
    let others ← compileChildren parent (id + child.modes.length)
      (grammar + child.commands.length) (taken ++ [key]) rest
    return ⟨(key, id) :: others.children, child.modes ++ others.modes,
      child.commands ++ others.commands⟩

end

/-! ## Breaking down

Scripts are compiled as if any number of steps fitted into a list.  Whether the program gets as far as
that is asked here, on the same course through the definitions. -/

/-- Whether compiling the commands of a mode comes to a script that asks for too many steps. -/
def commandsMeetExcess : List CommandDefinition → Compile Bool
  | [] => pure false
  | d :: rest => do
    let w ← get
    if (d.action.any fun source => (Script.scan source).isNone)
        && (Grammar.parse w.templates d.grammar).isOk then
      return true
    else
      -- the number of the mode does not matter to whether a command compiles
      let _ ← compileCommand 0 d
      commandsMeetExcess rest

mutual

/-- Whether compiling a mode comes to a script that asks for too many steps. -/
def meetsExcess : ModeDefinition → Compile Bool
  | ⟨defines, commands, modes⟩ => do
    compileDefines defines
    if ← commandsMeetExcess commands then return true
    else childrenMeetExcess [] modes

/-- Whether compiling the children of a mode does, where `taken` are the names of those before. -/
def childrenMeetExcess (taken : List String) : List (String × ModeDefinition) → Compile Bool
  | [] => pure false
  | (name, definition) :: rest => do
    let key := Text.lowercase name
    if taken.contains key then throw (.duplicateMode key)
    if ← meetsExcess definition then return true
    else childrenMeetExcess (taken ++ [key]) rest

end

namespace Tree

/-- The tree of a root mode, with the templates and notices that compiling it left behind. -/
def compile (templates : Grammar.Templates) (root : ModeDefinition) :
    Except LoadError Tree × Workspace :=
  (compileMode "" none 0 0 root).run.run ⟨templates, []⟩

/-- Whether compiling breaks down, since it comes to a script that asks for more steps than a list holds
    before it comes to an error. -/
def breaksDown (templates : Grammar.Templates) (root : ModeDefinition) : Bool :=
  match (meetsExcess root).run.run ⟨templates, []⟩ with
  | (.ok meets, _) => meets
  | (.error _, _) => false

/-- A tree that holds only an empty root mode. -/
def empty : Tree := ⟨[⟨"", none, [], []⟩], []⟩

/-! ## Looking things up -/

/-- The root mode. -/
def root : ModeId := 0

/-- The mode of a number. -/
def mode? (tree : Tree) (id : ModeId) : Option Mode := tree.modes[id]?

/-- The command of a grammar. -/
def command? (tree : Tree) (id : GrammarId) : Option Command := tree.commands[id]?

/-- The grammars of a mode; none for a number that is no mode's. -/
def grammars (tree : Tree) (id : ModeId) : List GrammarId :=
  match tree.mode? id with
  | some mode => mode.grammars
  | none => []

/-- The children of a mode, in order. -/
def children (tree : Tree) (id : ModeId) : List ModeId :=
  match tree.mode? id with
  | some mode => mode.children.map Prod.snd
  | none => []

/-- The child of a mode that has a name, whatever its letter case. -/
def child? (tree : Tree) (id : ModeId) (name : String) : Option ModeId :=
  match tree.mode? id with
  | some mode => mode.children.lookup (Text.lowercase name)
  | none => none

/-- At most `fuel` modes in preorder, from the modes that are still to be visited on. -/
def visit (tree : Tree) : (fuel : Nat) → (pending : List ModeId) → List ModeId
  | 0, _ => []
  | _, [] => []
  | fuel + 1, id :: pending => id :: tree.visit fuel (tree.children id ++ pending)

/-- All modes, each before its children and these in order.  No mode is a child twice, so that there
    are no more visits than modes. -/
def preorder (tree : Tree) : List ModeId := tree.visit tree.modes.length [root]

/-- The first mode in preorder that has a name, whatever its letter case. -/
def find? (tree : Tree) (name : String) : Option ModeId :=
  tree.preorder.find? fun id => (tree.mode? id).map Mode.name == some (Text.lowercase name)

/-- The name of a mode in events and logs; a number that is no mode's is shown as such. -/
def modeName (tree : Tree) (id : ModeId) : String :=
  match tree.mode? id with
  | some mode => mode.displayName
  | none => s!"m{id}"

end Tree

end SpokenCommand.Modes
