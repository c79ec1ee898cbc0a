import SpokenCommand.Proofs.Grammar.Writable
import SpokenCommand.Proofs.Modes.Numbering
/-!
When definitions compile, and what stops them.

Compiling recurses over a tree of modes and files templates on its way.  Seen from outside it goes
through a flat list of DEMANDS, in preorder: the templates of a mode are to be filed, then its commands
are to compile, then each child is to have a name of its own, just before what that child demands.

1. **A demand** is met or broken by the templates filed so far, never both (`Demand.Breaks.not_isMet`).

2. **The crux** is what it is for a computation to make demands (`Makes`): it succeeds with the templates
   that they file if all are met in order, and stops with the error of the first that is not.  This
   composes (`Makes.bind`), because what is demanded later does not depend on what was compiled before,
   only on the templates.  So the demands of the recursion are those of the list.

3. **Success** also says what was compiled, by `filed_commandsOf_grammars`: the templates that a command
   sees are those of the modes up to its own in preorder, whatever the tree looks like.
-/

namespace SpokenCommand.Modes

open Grammar (Templates)

/-! ## Demands -/

/-- What is demanded of definitions at one point. -/
inductive Demand where
  | /-- A template is to be filed. -/
    define (name source : String)
  | /-- A command is to compile. -/
    command (d : CommandDefinition)
  | /-- A child mode is to have another name than those of its siblings before. -/
    child (siblings : List String) (name : String)

mutual

/-- The demands of a mode and those below it, in order. -/
def ModeDefinition.demands : ModeDefinition → List Demand
  | ⟨defines, commands, modes⟩ =>
    defines.map (fun (name, source) => .define name source) ++ commands.map .command
      ++ demandsOfChildren [] modes

/-- The demands of child modes, after siblings of some names. -/
def demandsOfChildren (siblings : List String) : List (String × ModeDefinition) → List Demand
  | [] => []
  | (name, d) :: rest =>
    .child siblings name :: (d.demands ++ demandsOfChildren (siblings ++ [name]) rest)

end

/-- A command has an action that can be read, or no action and a function. -/
def CommandDefinition.HasEffect (d : CommandDefinition) : Prop :=
  match d.action with
  | some source => ∃ steps, Script.parse source = .ok steps
  | none => ∃ function, d.function.bind Builtin.ofName? = some function

namespace Demand

variable {t : Templates} {demand : Demand} {err : LoadError}

/-- The templates filed so far meet a demand. -/
def IsMet (t : Templates) : Demand → Prop
  | define name source =>
    Templates.isReserved name = false ∧ ∃ template, Grammar.parse t source = .ok template
  | command d => (∃ grammar, Grammar.parse t d.grammar = .ok grammar) ∧ d.HasEffect
  | child siblings name => ∀ other ∈ siblings, Text.lowercase other ≠ Text.lowercase name

/-- The templates filed so far do not meet a demand, for a reason. -/
inductive Breaks (t : Templates) : Demand → LoadError → Prop where
  | reserved {name source : String} (hname : Templates.isReserved name = true) :
      Breaks t (.define name source)
        (.define (Text.lowercase name) (.reservedName (Text.lowercase name)))
  | template {name source : String} {cause : Grammar.Error}
      (hname : Templates.isReserved name = false) (hparse : Grammar.parse t source = .error cause) :
      Breaks t (.define name source) (.define (Text.lowercase name) cause)
  | grammar {d : CommandDefinition} {cause : Grammar.Error}
      (hparse : Grammar.parse t d.grammar = .error cause) :
      Breaks t (.command d) (.grammar (d.name.getD d.grammar) cause)
  | action {d : CommandDefinition} {grammar : Grammar.Sequence} {source : String}
      {cause : Script.Error} (hparse : Grammar.parse t d.grammar = .ok grammar)
      (haction : d.action = some source) (hscript : Script.parse source = .error cause) :
      Breaks t (.command d) (.action (d.name.getD d.grammar) cause)
  | nothing {d : CommandDefinition} {grammar : Grammar.Sequence}
      (hparse : Grammar.parse t d.grammar = .ok grammar) (haction : d.action = none)
      (hfunction : d.function.bind Builtin.ofName? = none) :
      Breaks t (.command d) (.missingAction (d.name.getD d.grammar))
  | duplicate {siblings : List String} {name other : String} (hother : other ∈ siblings)
      (hsame : Text.lowercase other = Text.lowercase name) :
      Breaks t (.child siblings name) (.duplicateMode (Text.lowercase name))

theorem Breaks.not_isMet (h : demand.Breaks t err) : ¬ demand.IsMet t := by
  cases h with
  | reserved hname =>
    rintro ⟨hfree, -⟩
    rw [hname] at hfree
    cases hfree
  | template hname hparse =>
    rintro ⟨-, template, hok⟩
    rw [hparse] at hok
    cases hok
  | grammar hparse =>
    rintro ⟨⟨grammar, hok⟩, -⟩
    rw [hparse] at hok
    cases hok
  | action hparse haction hscript =>
    rintro ⟨-, heffect⟩
    rw [CommandDefinition.HasEffect, haction] at heffect
    obtain ⟨steps, hok⟩ := heffect
    rw [hscript] at hok
    cases hok
  | nothing hparse haction hfunction =>
    rintro ⟨-, heffect⟩
    rw [CommandDefinition.HasEffect, haction, hfunction] at heffect
    obtain ⟨function, hsome⟩ := heffect
    cases hsome
  | duplicate hother hsame =>
    intro hdiffer
    exact hdiffer _ hother hsame

/-- The templates after a demand: only a template to be filed adds to them. -/
def after (t : Templates) : Demand → Templates
  | define name source => t.afterSource name source
  | _ => t

end Demand

/-- The templates after demands, one after another. -/
def templatesAfter (t : Templates) (demands : List Demand) : Templates := demands.foldl Demand.after t

/-- Every demand is met by the templates that are filed when its turn comes. -/
def AllMet (t : Templates) : List Demand → Prop
  | [] => True
  | demand :: rest => demand.IsMet t ∧ AllMet (demand.after t) rest

/-- The demands are met up to one that breaks. -/
def FirstBreaks (t : Templates) (demands : List Demand) (err : LoadError) : Prop :=
  ∃ before demand rest, demands = before ++ demand :: rest ∧ AllMet t before ∧
    demand.Breaks (templatesAfter t before) err

variable {t : Templates} {demands others : List Demand} {err : LoadError}

theorem templatesAfter_append :
    templatesAfter t (demands ++ others) = templatesAfter (templatesAfter t demands) others :=
  List.foldl_append

theorem allMet_append :
    AllMet t (demands ++ others) ↔ AllMet t demands ∧ AllMet (templatesAfter t demands) others := by
  induction demands generalizing t with
  | nil => exact (and_iff_right trivial).symm
  | cons demand rest ih =>
    rw [List.cons_append, AllMet, AllMet, ih, and_assoc]
    rfl

theorem FirstBreaks.not_allMet (h : FirstBreaks t demands err) : ¬ AllMet t demands := by
  obtain ⟨before, demand, rest, rfl, -, hbreaks⟩ := h
  rw [allMet_append]
  rintro ⟨-, hmet, -⟩
  exact hbreaks.not_isMet hmet

theorem FirstBreaks.append_right (h : FirstBreaks t demands err) :
    FirstBreaks t (demands ++ others) err := by
  obtain ⟨before, demand, rest, rfl, hmet, hbreaks⟩ := h
  exact ⟨before, demand, rest ++ others, by simp, hmet, hbreaks⟩

theorem FirstBreaks.append_left (hmet : AllMet t demands)
    (h : FirstBreaks (templatesAfter t demands) others err) : FirstBreaks t (demands ++ others) err := by
  obtain ⟨before, demand, rest, rfl, hbefore, hbreaks⟩ := h
  refine ⟨demands ++ before, demand, rest, by simp, allMet_append.mpr ⟨hmet, hbefore⟩, ?_⟩
  rwa [templatesAfter_append]

/-! ## Computations that make demands -/

/-- How a computation ends that makes demands. -/
inductive Ends {α : Type} (t : Templates) (demands : List Demand) :
    Except LoadError α × Workspace → Prop where
  | met {a : α} {w : Workspace} (hmet : AllMet t demands)
      (hfiled : w.templates = templatesAfter t demands) : Ends t demands (.ok a, w)
  | broken {err : LoadError} {w : Workspace} (hbreaks : FirstBreaks t demands err) :
      Ends t demands (.error err, w)

/-- The computation succeeds if the demands are met in order, with the templates that they file, and
    stops with the error of the first that is not. -/
def Makes {α : Type} (x : Compile α) (demands : List Demand) : Prop :=
  ∀ w, Ends w.templates demands (x.run.run w)

section Makes

variable {α β : Type} {x : Compile α} {f : α → Compile β}

theorem run_bind_of_ok {a : α} {w w' : Workspace} (h : x.run.run w = (.ok a, w')) :
    (x >>= f).run.run w = (f a).run.run w' := by
  rw [ExceptT.run_bind, StateT.run_bind, h]
  rfl

theorem run_bind_of_error {w w' : Workspace} (h : x.run.run w = (.error err, w')) :
    (x >>= f).run.run w = (.error err, w') := by
  rw [ExceptT.run_bind, StateT.run_bind, h]
  rfl

/-- What follows a computation that makes demands adds its own. -/
theorem Ends.bind {w : Workspace} (hx : Ends t demands (x.run.run w))
    (hf : ∀ a, Makes (f a) others) : Ends t (demands ++ others) ((x >>= f).run.run w) := by
  rcases hrun : x.run.run w with ⟨err | a, w₁⟩
  · rw [run_bind_of_error hrun]
    rw [hrun] at hx
    cases hx with
    | broken hbreaks => exact .broken hbreaks.append_right
  · rw [run_bind_of_ok hrun]
    rw [hrun] at hx
    cases hx with
    | met hmet hfiled =>
      have hrest := hf a w₁
      rw [hfiled] at hrest
      rcases hrun' : (f a).run.run w₁ with ⟨err | b, w₂⟩
      · rw [hrun'] at hrest
        cases hrest with
        | broken hbreaks => exact .broken (.append_left hmet hbreaks)
      · rw [hrun'] at hrest
        cases hrest with
        | met hmet' hfiled' =>
          exact .met (allMet_append.mpr ⟨hmet, hmet'⟩) (hfiled'.trans templatesAfter_append.symm)

theorem makes_pure (a : α) : Makes (pure a) [] := fun _ => .met trivial rfl

/-- What only puts a result together demands nothing more. -/
theorem Ends.bind_pure {w : Workspace} (hx : Ends t demands (x.run.run w)) (g : α → β) :
    Ends t demands ((x >>= fun a => pure (g a)).run.run w) := by
  have hbind := hx.bind fun a => makes_pure (g a)
  rwa [List.append_nil] at hbind

/-- **The crux**: demands add up. -/
theorem Makes.bind (hx : Makes x demands) (hf : ∀ a, Makes (f a) others) :
    Makes (x >>= f) (demands ++ others) := fun w => (hx w).bind hf

theorem Makes.bind_pure (hx : Makes x demands) (g : α → β) :
    Makes (x >>= fun a => pure (g a)) demands := fun w => (hx w).bind_pure g

/-- What comes after the workspace is looked at makes the demands. -/
theorem makes_get_bind {g : Workspace → Compile β}
    (hg : ∀ w, Ends w.templates demands ((g w).run.run w)) : Makes (get >>= g) demands := hg

/-- A demand that breaks whatever the templates are stops the computation. -/
theorem makes_throw_bind {demand : Demand} {rest : List Demand} {g : Unit → Compile β}
    (hbreaks : ∀ t, demand.Breaks t err) : Makes (throw err >>= g) (demand :: rest) :=
  fun w => .broken ⟨[], demand, rest, rfl, trivial, hbreaks w.templates⟩

/-- A demand that is met whatever the templates are, and files none, may be made as well. -/
theorem Makes.of_met {demand : Demand} (hmet : ∀ t, demand.IsMet t) (hafter : ∀ t, demand.after t = t)
    (hx : Makes x demands) : Makes x (demand :: demands) := by
  have hcheck : Makes (pure ()) [demand] :=
    fun w => .met ⟨hmet w.templates, trivial⟩ (hafter w.templates).symm
  exact hcheck.bind fun _ => hx

end Makes

/-! ## Templates -/

/-- A name is built in if its lowercase form is. -/
theorem isReserved_of_isReserved_lowercase {name : String}
    (h : Templates.isReserved (Text.lowercase name) = true) : Templates.isReserved name = true := by
  simp only [Templates.isReserved, Bool.or_eq_true, beq_iff_eq] at h ⊢
  -- both built-in names are words of letters that nothing beyond ASCII becomes
  have hletters : Templates.dictateName.toList ⊆ Text.ownLetters ∧
      Templates.wildcardName.toList ⊆ Text.ownLetters := by decide
  rcases h with hname | hname
  · have hown := hletters.1
    rw [← hname] at hown
    exact Or.inl ((Text.lowerAscii_of_lowercase hown).trans hname)
  · have hown := hletters.2
    rw [← hname] at hown
    exact Or.inr ((Text.lowerAscii_of_lowercase hown).trans hname)

theorem isReserved_lowercase_eq_false {name : String} (h : Templates.isReserved name = false) :
    Templates.isReserved (Text.lowercase name) = false := by
  rw [Bool.eq_false_iff] at h ⊢
  exact fun hkey => h (isReserved_of_isReserved_lowercase hkey)

/-- A template is filed if it is demanded and met, -/
theorem isMet_of_defineSource {name source : String} {defined : Templates} {notices : List Notice}
    (h : t.defineSource name source = .ok (defined, notices)) :
    (Demand.define name source).IsMet t ∧ defined = (Demand.define name source).after t := by
  obtain ⟨template, hparse, -, -⟩ := Templates.eq_put_of_defineSource h
  have hname : Templates.isReserved name = false := by
    rw [Bool.eq_false_iff]
    intro hreserved
    rw [Templates.defineSource, if_pos hreserved] at h
    cases h
  refine ⟨⟨hname, template, hparse⟩, ?_⟩
  rw [Demand.after, Templates.afterSource, h]

/-- and otherwise the demand breaks. -/
theorem breaks_of_defineSource {name source : String} {cause : Grammar.Error}
    (h : t.defineSource name source = .error cause) :
    (Demand.define name source).Breaks t (.define (Text.lowercase name) cause) := by
  rw [Templates.defineSource] at h
  split at h
  · rename_i hreserved
    cases h
    exact .reserved hreserved
  · rename_i hfree
    have hname : Templates.isReserved name = false := Bool.eq_false_iff.mpr hfree
    split at h
    · rename_i hparse
      cases h
      exact .template hname hparse
    · -- the name is looked at once more, in lowercase, which makes no difference
      rw [Templates.define, isReserved_lowercase_eq_false hname] at h
      cases h

/-! ## Compiling makes its demands -/

theorem makes_compileDefine (name source : String) :
    Makes (compileDefine name source) [.define name source] := by
  refine makes_get_bind fun w => ?_
  split
  · rename_i cause hdefine
    exact .broken ⟨[], _, [], rfl, trivial, breaks_of_defineSource hdefine⟩
  · rename_i templates notices hdefine
    obtain ⟨hmet, hafter⟩ := isMet_of_defineSource hdefine
    exact .met ⟨hmet, trivial⟩ hafter

theorem makes_compileDefines (defines : List (String × String)) :
    Makes (compileDefines defines) (defines.map fun (name, source) => .define name source) := by
  induction defines with
  | nil => exact makes_pure ()
  | cons define rest ih => exact (makes_compileDefine define.1 define.2).bind fun _ => ih

/-- A command's function is looked up, and the templates stay. -/
theorem exists_run_compileFunction (command : String) (function : Option String) (w : Workspace) :
    ∃ w', w'.templates = w.templates ∧
      (compileFunction command function).run.run w = (.ok (function.bind Builtin.ofName?), w') := by
  cases function with
  | none => exact ⟨w, rfl, rfl⟩
  | some name =>
    rw [compileFunction]
    split
    · rename_i found hname
      exact ⟨w, rfl, by rw [Option.bind_some, hname]; rfl⟩
    · rename_i hname
      refine ⟨{ w with notices := w.notices ++ [.functionNotFound name command] }, rfl, ?_⟩
      rw [Option.bind_some, hname]
      rfl

/-- A command's actions are read, or left out if there is a function; otherwise the demand breaks. -/
theorem ends_compileActions {d : CommandDefinition} {grammar : Grammar.Sequence} {w : Workspace}
    (hparse : Grammar.parse w.templates d.grammar = .ok grammar) :
    Ends w.templates [.command d] ((compileActions (d.name.getD d.grammar)
      (d.function.bind Builtin.ofName?) d.action).run.run w) := by
  cases haction : d.action with
  | some source =>
    rw [compileActions]
    cases hscript : Script.parse source with
    | error cause => exact .broken ⟨[], _, [], rfl, trivial, .action hparse haction hscript⟩
    | ok steps =>
      have heffect : d.HasEffect := by
        rw [CommandDefinition.HasEffect, haction]
        exact ⟨steps, hscript⟩
      exact .met ⟨⟨⟨grammar, hparse⟩, heffect⟩, trivial⟩ rfl
  | none =>
    rw [compileActions]
    cases hfunction : d.function.bind Builtin.ofName? with
    | none => exact .broken ⟨[], _, [], rfl, trivial, .nothing hparse haction hfunction⟩
    | some function =>
      have heffect : d.HasEffect := by
        rw [CommandDefinition.HasEffect, haction]
        exact ⟨function, hfunction⟩
      exact .met ⟨⟨⟨grammar, hparse⟩, heffect⟩, trivial⟩ rfl

theorem makes_compileCommand (mode : ModeId) (d : CommandDefinition) :
    Makes (compileCommand mode d) [.command d] := by
  refine makes_get_bind fun w => ?_
  split
  · rename_i cause hparse
    exact .broken ⟨[], _, [], rfl, trivial, .grammar hparse⟩
  · rename_i grammar hparse
    obtain ⟨w', htemplates, hfunction⟩ :=
      exists_run_compileFunction (d.name.getD d.grammar) d.function w
    rw [run_bind_of_ok hfunction]
    rw [← htemplates] at hparse ⊢
    exact (ends_compileActions hparse).bind_pure _

theorem makes_compileCommands (mode : ModeId) (ds : List CommandDefinition) :
    Makes (compileCommands mode ds) (ds.map .command) := by
  induction ds with
  | nil => exact makes_pure []
  | cons d rest ih => exact (makes_compileCommand mode d).bind fun command => ih.bind_pure _

mutual

/-- **A mode** makes its demands. -/
theorem makes_compileMode (name : String) (parent : Option ModeId) (id : ModeId)
    (grammar : GrammarId) (d : ModeDefinition) :
    Makes (compileMode name parent id grammar d) d.demands := by
  match d with
  | ⟨defines, commands, modes⟩ =>
    rw [compileMode, ModeDefinition.demands, List.append_assoc]
    refine (makes_compileDefines defines).bind fun _ => ?_
    refine (makes_compileCommands id commands).bind fun own => ?_
    exact (makes_compileChildren id (id + 1) grammar [] modes).bind_pure _

theorem makes_compileChildren (parent id : ModeId) (grammar : GrammarId) (siblings : List String)
    (modes : List (String × ModeDefinition)) :
    Makes (compileChildren parent id grammar (siblings.map Text.lowercase) modes)
      (demandsOfChildren siblings modes) := by
  match modes with
  | [] =>
    rw [compileChildren]
    exact makes_pure _
  | (name, d) :: rest =>
    rw [compileChildren, demandsOfChildren]
    split
    · rename_i htaken
      obtain ⟨other, hother, hsame⟩ := List.mem_map.mp (List.contains_iff_mem.mp htaken)
      exact makes_throw_bind fun t => .duplicate hother hsame
    · rename_i hfree
      have hmet : ∀ other ∈ siblings, Text.lowercase other ≠ Text.lowercase name := by
        intro other hother hsame
        exact hfree (List.contains_iff_mem.mpr (List.mem_map.mpr ⟨other, hother, hsame⟩))
      refine Makes.of_met (fun t => hmet) (fun t => rfl) ?_
      refine (makes_compileMode (Text.lowercase name) (some parent) id grammar d).bind fun child => ?_
      have hothers := makes_compileChildren parent (id + child.modes.length)
        (grammar + child.commands.length) (siblings ++ [name]) rest
      rw [List.map_append, List.map_singleton] at hothers
      exact hothers.bind_pure _

end

/-! ## Acceptance -/

/-- Filing templates in order is defining them from their sources. -/
theorem Filed.eq_foldl {t' : Templates} {defines : List (String × String)} (h : Filed t defines t') :
    t' = defines.foldl (fun t entry => t.afterSource entry.1 entry.2) t := by
  induction defines generalizing t with
  | nil => exact h
  | cons define rest ih =>
    obtain ⟨t₁, notices, hdefine, hrest⟩ := h
    rw [List.foldl_cons, Templates.afterSource, hdefine]
    exact ih hrest

namespace Tree

theorem ends_compile (t : Templates) (d : ModeDefinition) : Ends t d.demands (compile t d) :=
  makes_compileMode "" none 0 0 d ⟨t, []⟩

/-- **Acceptance and scoping.**  Beside the built-in templates, definitions compile if and only if their
    demands are all met in order, and what stops them is the first demand that breaks.  Every command
    of the tree is what its definition says, under the templates of the modes up to its own in
    preorder, and the templates of all modes are left behind. -/
theorem compile_meets_demands (d : ModeDefinition) :
    ((∃ tree w, compile .builtin d = (.ok tree, w)) ↔ AllMet .builtin d.demands) ∧
      (∀ err w, compile .builtin d = (.error err, w) → FirstBreaks .builtin d.demands err) ∧
      ∀ tree w, compile .builtin d = (.ok tree, w) →
        w.templates = .ofSources (d.preorder.flatMap ModeDefinition.defines) ∧
        tree.modes.length = d.preorder.length ∧
        (∀ g c, tree.command? g = some c → g ∈ tree.grammars c.mode) ∧
        ∀ m md, d.preorder[m]? = some md →
          List.Forall₂
            (fun cd g => ∃ c, tree.command? g = some c ∧
              CommandOf (.ofSources ((d.preorder.take (m + 1)).flatMap ModeDefinition.defines)) m cd c)
            md.commands (tree.grammars m) := by
  have hends := ends_compile .builtin d
  refine ⟨⟨?_, ?_⟩, ?_, ?_⟩
  · rintro ⟨tree, w, hcompile⟩
    rw [hcompile] at hends
    cases hends with
    | met hmet hfiled => exact hmet
  · intro hmet
    rcases hcompile : compile .builtin d with ⟨err | tree, w⟩
    · rw [hcompile] at hends
      cases hends with
      | broken hbreaks => exact absurd hmet hbreaks.not_allMet
    · exact ⟨tree, w, rfl⟩
  · intro err w hcompile
    rw [hcompile] at hends
    cases hends with
    | broken hbreaks => exact hbreaks
  · intro tree w hcompile
    refine ⟨(filed_preorder hcompile).eq_foldl, (length_preorder hcompile).symm, ?_, ?_⟩
    · intro g c hc
      exact (mem_grammars_iff hcompile).mpr ⟨c, hc, rfl⟩
    · intro m md hm
      obtain ⟨tₘ, hfiled, hcommands⟩ := filed_commandsOf_grammars hcompile hm
      obtain rfl : tₘ = _ := hfiled.eq_foldl
      exact hcommands

/-- The templates of a mode are seen by its later siblings, and not by those before. -/
example :
    let filing : String × ModeDefinition := ("a", ⟨[("x", "one")], [], []⟩)
    let user : String × ModeDefinition := ("b", ⟨[], [⟨none, "$x", some "", none⟩], []⟩)
    (compile .builtin ⟨[], [], [filing, user]⟩).1.isOk = true ∧
      (compile .builtin ⟨[], [], [user, filing]⟩).1.isOk = false := by
  decide +kernel

end Tree

end SpokenCommand.Modes
