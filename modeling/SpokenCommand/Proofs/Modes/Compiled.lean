import Mathlib.Data.List.Forall2
import SpokenCommand.Modes.Tree
import SpokenCommand.Proofs.Text.Lowercase
/-!
What a successful compilation of modes has done.

Compiling is a computation with a state and an error.  Here its successes are written out as a
relation on data alone: which templates are filed, which command each definition becomes, and how a
mode is put together from its commands and the FOREST of the modes below it.

`Compiled` has one constructor for each way in which a list of modes compiles, so that the facts about
numbers that the other modules of this folder prove are inductions on it, with the modes below and the
modes beside as the two hypotheses.  A whole tree is the forest of one mode without a parent; that is
what `compiled_of_compile` says.
-/

namespace SpokenCommand.Modes

open Grammar (Templates)

variable {α β : Type} {w w' : Workspace}

/-! ## Successful computations -/

/-- The computation succeeds with `a` and takes the workspace from `w` to `w'`. -/
def Yields (x : Compile α) (w : Workspace) (a : α) (w' : Workspace) : Prop :=
  x.run.run w = (.ok a, w')

theorem yields_pure {a b : α} : Yields (pure a) w b w' ↔ a = b ∧ w = w' := by
  constructor
  · intro h
    cases h
    exact ⟨rfl, rfl⟩
  · rintro ⟨rfl, rfl⟩
    rfl

theorem not_yields_throw {e : LoadError} {a : α} : ¬ Yields (throw e) w a w' := by
  intro h
  cases h

theorem yields_bind {x : Compile α} {f : α → Compile β} {b : β} :
    Yields (x >>= f) w b w' ↔ ∃ a w₁, Yields x w a w₁ ∧ Yields (f a) w₁ b w' := by
  unfold Yields
  rw [ExceptT.run_bind, StateT.run_bind]
  rcases h : x.run.run w with ⟨e | a, w₁⟩
  · constructor
    · intro h'
      cases h'
    · rintro ⟨a, w₂, h', -⟩
      cases h'
  · constructor
    · intro h'
      exact ⟨a, w₁, rfl, h'⟩
    · rintro ⟨a', w₂, heq, h'⟩
      cases heq
      exact h'

theorem yields_get {v : Workspace} : Yields get w v w' ↔ v = w ∧ w' = w := by
  constructor
  · intro h
    cases h
    exact ⟨rfl, rfl⟩
  · rintro ⟨rfl, rfl⟩
    rfl

/-! ## Templates and commands -/

/-- Filing `defines` in order leads from the templates `t` to the templates `t'`. -/
def Filed (t : Templates) : List (String × String) → Templates → Prop
  | [], t' => t' = t
  | (name, source) :: rest, t' =>
    ∃ t₁ notices, t.defineSource name source = .ok (t₁, notices) ∧ Filed t₁ rest t'

theorem filed_append {t t' : Templates} {defines others : List (String × String)} :
    Filed t (defines ++ others) t' ↔ ∃ t₁, Filed t defines t₁ ∧ Filed t₁ others t' := by
  induction defines generalizing t with
  | nil => exact ⟨fun h => ⟨t, rfl, h⟩, fun ⟨_, heq, h⟩ => heq ▸ h⟩
  | cons define rest ih =>
    obtain ⟨name, source⟩ := define
    constructor
    · rintro ⟨t₁, notices, hdefine, hrest⟩
      obtain ⟨t₂, hfirst, hothers⟩ := ih.mp hrest
      exact ⟨t₂, ⟨t₁, notices, hdefine, hfirst⟩, hothers⟩
    · rintro ⟨t₂, ⟨t₁, notices, hdefine, hfirst⟩, hothers⟩
      exact ⟨t₁, notices, hdefine, ih.mpr ⟨t₂, hfirst, hothers⟩⟩

/-- The steps that an action becomes; it may be left out if there is a function. -/
def ActionsOf (function : Option Builtin) : Option String → List Script.Step → Prop
  | some source, steps => Script.parse source = .ok steps
  | none, steps => steps = [] ∧ function.isSome = true

/-- The command that a definition becomes in a mode, when the templates are `t`. -/
structure CommandOf (t : Templates) (mode : ModeId) (d : CommandDefinition) (c : Command) : Prop where
  mode_eq : c.mode = mode
  name_eq : c.name = d.name.getD d.grammar
  grammar_eq : Grammar.parse t d.grammar = .ok c.grammar
  function_eq : c.function = d.function.bind Builtin.ofName?
  actions_of : ActionsOf c.function d.action c.actions

theorem filed_of_compileDefines {defines : List (String × String)}
    (h : Yields (compileDefines defines) w () w') : Filed w.templates defines w'.templates := by
  induction defines generalizing w with
  | nil =>
    obtain ⟨-, rfl⟩ := yields_pure.mp h
    rfl
  | cons define rest ih =>
    obtain ⟨name, source⟩ := define
    obtain ⟨_, w₁, hfirst, hrest⟩ := yields_bind.mp h
    obtain ⟨v, w₂, hget, hset⟩ := yields_bind.mp hfirst
    obtain ⟨rfl, rfl⟩ := yields_get.mp hget
    split at hset
    · exact absurd hset not_yields_throw
    · rename_i templates notices hdefine
      cases hset
      exact ⟨templates, notices, hdefine, ih hrest⟩

theorem yields_compileFunction {command : String} {function : Option String} {b : Option Builtin}
    (h : Yields (compileFunction command function) w b w') :
    b = function.bind Builtin.ofName? ∧ w'.templates = w.templates := by
  cases function with
  | none =>
    obtain ⟨rfl, rfl⟩ := yields_pure.mp h
    exact ⟨rfl, rfl⟩
  | some name =>
    rw [compileFunction] at h
    split at h
    · rename_i found hname
      obtain ⟨rfl, rfl⟩ := yields_pure.mp h
      exact ⟨by simp [hname], rfl⟩
    · rename_i hname
      obtain ⟨_, w₁, hnotify, hpure⟩ := yields_bind.mp h
      obtain ⟨rfl, rfl⟩ := yields_pure.mp hpure
      cases hnotify
      exact ⟨by simp [hname], rfl⟩

theorem yields_compileActions {command : String} {function : Option Builtin}
    {action : Option String} {steps : List Script.Step}
    (h : Yields (compileActions command function action) w steps w') :
    ActionsOf function action steps ∧ w' = w := by
  cases action with
  | none =>
    rw [compileActions] at h
    split at h
    · rename_i hfunction
      obtain ⟨rfl, rfl⟩ := yields_pure.mp h
      exact ⟨⟨rfl, hfunction⟩, rfl⟩
    · exact absurd h not_yields_throw
  | some source =>
    rw [compileActions] at h
    split at h
    · rename_i parsed hparse
      obtain ⟨rfl, rfl⟩ := yields_pure.mp h
      exact ⟨hparse, rfl⟩
    · exact absurd h not_yields_throw

theorem commandOf_of_compileCommand {mode : ModeId} {d : CommandDefinition} {c : Command}
    (h : Yields (compileCommand mode d) w c w') :
    CommandOf w.templates mode d c ∧ w'.templates = w.templates := by
  obtain ⟨v, w₁, hget, hparsed⟩ := yields_bind.mp h
  obtain ⟨rfl, rfl⟩ := yields_get.mp hget
  split at hparsed
  · exact absurd hparsed not_yields_throw
  · rename_i grammar hparse
    obtain ⟨function, w₂, hfunction, hrest⟩ := yields_bind.mp hparsed
    obtain ⟨actions, w₃, hactions, hpure⟩ := yields_bind.mp hrest
    obtain ⟨rfl, rfl⟩ := yields_pure.mp hpure
    obtain ⟨hf, ht⟩ := yields_compileFunction hfunction
    obtain ⟨ha, rfl⟩ := yields_compileActions hactions
    exact ⟨⟨rfl, rfl, hparse, hf, ha⟩, ht⟩

theorem commandsOf_of_compileCommands {mode : ModeId} {ds : List CommandDefinition}
    {cs : List Command} (h : Yields (compileCommands mode ds) w cs w') :
    List.Forall₂ (CommandOf w.templates mode) ds cs ∧ w'.templates = w.templates := by
  induction ds generalizing w cs with
  | nil =>
    obtain ⟨rfl, rfl⟩ := yields_pure.mp h
    exact ⟨.nil, rfl⟩
  | cons d rest ih =>
    obtain ⟨c, w₁, hc, hrest⟩ := yields_bind.mp h
    obtain ⟨cs', w₂, hcs, hpure⟩ := yields_bind.mp hrest
    obtain ⟨rfl, rfl⟩ := yields_pure.mp hpure
    obtain ⟨hcommand, ht₁⟩ := commandOf_of_compileCommand hc
    obtain ⟨hrest, ht₂⟩ := ih hcs
    rw [ht₁] at hrest ht₂
    exact ⟨.cons hcommand hrest, ht₂⟩

/-! ## Modes -/

/-- The tree of a mode, from the commands of its own and the modes below it. -/
def Forest.rooted (below : Forest) (name : String) (parent : Option ModeId) (grammar : GrammarId)
    (own : List Command) : Tree :=
  ⟨⟨name, parent, below.children, List.range' (grammar + below.commands.length) own.length⟩
      :: below.modes, below.commands ++ own⟩

/-- A mode beside others. -/
def Forest.beside (others : Forest) (name : String) (id : ModeId) (tree : Tree) : Forest :=
  ⟨(name, id) :: others.children, tree.modes ++ others.modes, tree.commands ++ others.commands⟩

@[simp] theorem Forest.length_rooted_modes {below : Forest} {name : String}
    {parent : Option ModeId} {grammar : GrammarId} {own : List Command} :
    (below.rooted name parent grammar own).modes.length = below.modes.length + 1 := rfl

@[simp] theorem Forest.length_rooted_commands {below : Forest} {name : String}
    {parent : Option ModeId} {grammar : GrammarId} {own : List Command} :
    (below.rooted name parent grammar own).commands.length =
      below.commands.length + own.length := List.length_append

@[simp] theorem Forest.length_beside_modes {others : Forest} {name : String} {id : ModeId}
    {tree : Tree} :
    (others.beside name id tree).modes.length = tree.modes.length + others.modes.length :=
  List.length_append

@[simp] theorem Forest.length_beside_commands {others : Forest} {name : String} {id : ModeId}
    {tree : Tree} :
    (others.beside name id tree).commands.length =
      tree.commands.length + others.commands.length := List.length_append

/-- The modes of a list compile to a forest and take the templates from `t` to `t'`.  The forest's
    modes are numbered from `id` on and its grammars from `grammar` on; `taken` are the names of the
    modes of the same parent before. -/
inductive Compiled : Templates → Option ModeId → ModeId → GrammarId → List String →
    List (String × ModeDefinition) → Forest → Templates → Prop
  | nil {t parent id grammar taken} : Compiled t parent id grammar taken [] ⟨[], [], []⟩ t
  | cons {t t₁ t₂ t' parent id grammar taken name d rest own below others tree}
      (hnew : Text.lowercase name ∉ taken) (hfiled : Filed t d.defines t₁)
      (hown : List.Forall₂ (CommandOf t₁ id) d.commands own)
      (hbelow : Compiled t₁ (some id) (id + 1) grammar [] d.modes below t₂)
      (htree : tree = below.rooted (Text.lowercase name) parent grammar own)
      (hothers : Compiled t₂ parent (id + tree.modes.length) (grammar + tree.commands.length)
        (taken ++ [Text.lowercase name]) rest others t') :
      Compiled t parent id grammar taken ((name, d) :: rest)
        (others.beside (Text.lowercase name) id tree) t'

/-- One mode compiles to a tree. -/
def CompiledMode (t : Templates) (name : String) (parent : Option ModeId) (id : ModeId)
    (grammar : GrammarId) (d : ModeDefinition) (tree : Tree) (t' : Templates) : Prop :=
  ∃ t₁ own below, Filed t d.defines t₁ ∧ List.Forall₂ (CommandOf t₁ id) d.commands own ∧
    Compiled t₁ (some id) (id + 1) grammar [] d.modes below t' ∧
    tree = below.rooted name parent grammar own

mutual

theorem compiledMode_of_compileMode {w w' : Workspace} (name : String) (parent : Option ModeId)
    (id : ModeId) (grammar : GrammarId) (d : ModeDefinition) {tree : Tree}
    (h : Yields (compileMode name parent id grammar d) w tree w') :
    CompiledMode w.templates (Text.lowercase name) parent id grammar d tree w'.templates := by
  match d with
  | ⟨defines, commands, modes⟩ =>
    rw [compileMode] at h
    obtain ⟨_, w₁, hdefines, hcommands⟩ := yields_bind.mp h
    obtain ⟨own, w₂, hown, hchildren⟩ := yields_bind.mp hcommands
    obtain ⟨below, w₃, hbelow, hpure⟩ := yields_bind.mp hchildren
    obtain ⟨rfl, rfl⟩ := yields_pure.mp hpure
    -- commands leave the templates as they are, so that the modes below start from the same ones
    obtain ⟨hcommandsOf, ht⟩ := commandsOf_of_compileCommands hown
    have hforest := compiled_of_compileChildren id (id + 1) grammar [] modes hbelow
    rw [ht] at hforest
    exact ⟨w₁.templates, own, below, filed_of_compileDefines hdefines, hcommandsOf, hforest, rfl⟩

theorem compiled_of_compileChildren {w w' : Workspace} (parent id : ModeId) (grammar : GrammarId)
    (taken : List String) (modes : List (String × ModeDefinition)) {forest : Forest}
    (h : Yields (compileChildren parent id grammar taken modes) w forest w') :
    Compiled w.templates (some parent) id grammar taken modes forest w'.templates := by
  match modes with
  | [] =>
    rw [compileChildren] at h
    obtain ⟨rfl, rfl⟩ := yields_pure.mp h
    exact .nil
  | (name, d) :: rest =>
    rw [compileChildren] at h
    split at h
    · obtain ⟨_, w₁, hthrow, -⟩ := yields_bind.mp h
      exact absurd hthrow not_yields_throw
    · rename_i hfree
      obtain ⟨child, w₂, hchild, hrest⟩ := yields_bind.mp h
      obtain ⟨others, w₃, hothers, hpure⟩ := yields_bind.mp hrest
      obtain ⟨rfl, rfl⟩ := yields_pure.mp hpure
      obtain ⟨t₁, own, below, hfiled, hown, hbelow, htree⟩ :=
        compiledMode_of_compileMode (Text.lowercase name) (some parent) id grammar d hchild
      rw [Text.lowercase_lowercase] at htree
      exact .cons (by simpa using hfree) hfiled hown hbelow htree
        (compiled_of_compileChildren parent (id + child.modes.length)
          (grammar + child.commands.length) (taken ++ [Text.lowercase name]) rest hothers)

end

/-- A compiled tree is the forest of one mode that has no parent, numbered from zero. -/
theorem compiled_of_compile {t : Templates} {d : ModeDefinition} {tree : Tree} {w : Workspace}
    (h : Tree.compile t d = (.ok tree, w)) :
    Compiled t none 0 0 [] [("", d)] ⟨[("", Tree.root)], tree.modes, tree.commands⟩ w.templates := by
  obtain ⟨t₁, own, below, hfiled, hown, hbelow, htree⟩ :=
    compiledMode_of_compileMode (w := ⟨t, []⟩) "" none 0 0 d h
  have hempty : Text.lowercase "" = "" := rfl
  have hcons := @Compiled.cons t t₁ w.templates w.templates none 0 0 [] "" d [] own below
    ⟨[], [], []⟩ tree List.not_mem_nil hfiled hown hbelow htree .nil
  rw [Forest.beside, hempty, List.append_nil, List.append_nil] at hcons
  exact hcons

end SpokenCommand.Modes
