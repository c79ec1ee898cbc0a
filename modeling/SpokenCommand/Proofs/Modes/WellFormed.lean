import SpokenCommand.Proofs.Grammar.Contexts
import SpokenCommand.Proofs.Modes.Demands
/-!
Grammars of definitions are well-formed.

Compiling definitions is the one place where templates are defined, and where a grammar is handed on that
nobody looks at again.  Both are safe at every point of a load, also of one that fails later:

1. **Contexts.**  A load that has got somewhere has filed some templates from source, beside the built-in ones
   and nothing else (`exists_templatesAfter_eq`).  So its templates are those of `Proofs/Grammar/Contexts`.

2. **Grammars.**  Every command is compiled under such templates, and its grammar is well-formed, whether the
   load then goes on, stops at that very command, or succeeds (`isWellFormed_of_mem_commands`).
-/

namespace SpokenCommand.Modes

open Grammar (Templates)

/-- The templates that a load has filed when its turn comes to some demand were defined from sources. -/
theorem exists_templatesAfter_eq (demands : List Demand) :
    ∃ sources, templatesAfter .builtin demands = .ofSources sources := by
  induction demands using List.reverseRecOn with
  | nil => exact ⟨[], rfl⟩
  | append_singleton before demand ih =>
    obtain ⟨sources, hsources⟩ := ih
    rw [templatesAfter_append, hsources]
    cases demand with
    | define name source =>
      refine ⟨sources ++ [(name, source)], ?_⟩
      simp only [Templates.ofSources, List.foldl_append]
      rfl
    | command d => exact ⟨sources, rfl⟩
    | child siblings name => exact ⟨sources, rfl⟩

/-- In a load, a definition leaves the templates behind that it leads to, whether it fails or not. -/
theorem templates_compileDefine (name source : String) (w : Workspace) :
    ((compileDefine name source).run.run w).2.templates = w.templates.afterSource name source := by
  have hget : (get : Compile Workspace).run.run w = (.ok w, w) := rfl
  rw [compileDefine, run_bind_of_ok hget, Templates.afterSource]
  cases w.templates.defineSource name source with
  | error e => rfl
  | ok r => rfl

/-- The commands of a tree have well-formed grammars. -/
theorem isWellFormed_of_mem_commands {d : ModeDefinition} {tree : Tree} {w : Workspace}
    (h : Tree.compile .builtin d = (.ok tree, w)) {c : Command} (hc : c ∈ tree.commands) :
    c.grammar.IsWellFormed := by
  obtain ⟨g, hg⟩ := List.mem_iff_getElem?.mp hc
  have hmem : g ∈ tree.grammars c.mode := (Tree.mem_grammars_iff h).mpr ⟨c, hg, rfl⟩
  have hlt : c.mode < d.preorder.length := by
    rw [Tree.length_preorder h]
    exact Tree.lt_of_mem_grammars hmem
  obtain ⟨t, hfiled, hcommands⟩ := Tree.filed_commandsOf_grammars h (List.getElem?_eq_getElem hlt)
  obtain rfl : t = .ofSources _ := hfiled.eq_foldl
  obtain ⟨k, hk, hkg⟩ := List.mem_iff_getElem.mp hmem
  -- the definition at the same place of the mode is the one that the command was compiled from
  obtain ⟨c', hc', hof⟩ := hcommands.get (hcommands.length_eq ▸ hk) hk
  obtain rfl : c' = c := by
    rw [List.get_eq_getElem, hkg] at hc'
    exact Option.some.inj (hc'.symm.trans hg)
  exact Templates.isWellFormed_of_parse hof.grammar_eq

/-- **Well-formed throughout.**  After any definitions from source, in any order and whether they succeeded or
    not:

    * the built-in templates are what they always were, and all templates are well-formed;
    * one more definition fails and changes nothing, or changes the entry of its lowercase name alone; in a
      load as well as outside;
    * whatever is read is well-formed.

    And so are the grammars of commands: those that a load reads when the turn of their command comes, also if
    it fails later, and those of the tree that it builds. -/
theorem wellFormed_throughout (sources : List (String × String)) :
    (Templates.ofSources sources).IsWellFormed ∧
      (∀ name source, (Templates.ofSources sources).DefinesOne name source) ∧
      (∀ name source notices,
        ((compileDefine name source).run.run ⟨.ofSources sources, notices⟩).2.templates =
          (Templates.ofSources sources).afterSource name source) ∧
      (∀ source sequence, Grammar.parse (.ofSources sources) source = .ok sequence →
        sequence.IsWellFormed) ∧
      (∀ (d : ModeDefinition) before command rest grammar,
        d.demands = before ++ .command command :: rest →
          Grammar.parse (templatesAfter .builtin before) command.grammar = .ok grammar →
            grammar.IsWellFormed) ∧
      ∀ d tree w, Tree.compile .builtin d = (.ok tree, w) →
        ∀ c ∈ tree.commands, c.grammar.IsWellFormed := by
  refine ⟨Templates.isWellFormed_ofSources sources, ?_, ?_, ?_, ?_, ?_⟩
  · exact Templates.definesOne (.ofSources sources)
  · intro name source notices
    exact templates_compileDefine name source ⟨.ofSources sources, notices⟩
  · intro source sequence hparse
    exact Templates.isWellFormed_of_parse hparse
  · intro d before command rest grammar _ hparse
    obtain ⟨filed, hfiled⟩ := exists_templatesAfter_eq before
    rw [hfiled] at hparse
    exact Templates.isWellFormed_of_parse hparse
  · intro d tree w hcompile c hc
    exact isWellFormed_of_mem_commands hcompile hc

end SpokenCommand.Modes
