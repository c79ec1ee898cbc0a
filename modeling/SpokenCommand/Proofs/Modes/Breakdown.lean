import SpokenCommand.Proofs.Modes.Compiled
import SpokenCommand.Proofs.Script.Holding
/-!
When compiling modes breaks down.

Whether compiling comes to a script that asks for too many steps is found by going through definitions as
compiling does.  As long as no such script has come, the question is answered with `false` and the
workspace is the one that compiling has; that is the invariant which is carried from command to command
and from mode to mode (`Answers`).  Of definitions that compile it comes out that compiling breaks down
just if there is a command whose actions a list does not hold (`Tree.breaksDown_iff`).
-/

namespace SpokenCommand.Modes

open Script (maxSteps scan)

variable {w w₁ w' : Workspace} {x y : Compile Bool} {p q : Prop}

/-! ## Answers -/

/-- The question is answered with `false` if `p` is the case, with `w'` as the workspace left behind, and
    with `true` if not. -/
structure Answers (x : Compile Bool) (w : Workspace) (p : Prop) (w' : Workspace) : Prop where
  no : p → Yields x w false w'
  yes : ¬p → ∃ w'', Yields x w true w''

theorem Answers.congr (h : Answers x w p w') (hpq : p ↔ q) : Answers x w q w' :=
  ⟨fun hq => h.no (hpq.mpr hq), fun hq => h.yes (mt hpq.mp hq)⟩

/-- A question after something else. -/
theorem Answers.after {α : Type} {a : α} {z : Compile α} {f : α → Compile Bool} (hz : Yields z w a w₁)
    (h : Answers (f a) w₁ p w') : Answers (z >>= f) w p w' where
  no hp := yields_bind.mpr ⟨a, w₁, hz, h.no hp⟩
  yes hp := by
    obtain ⟨w'', hyes⟩ := h.yes hp
    exact ⟨w'', yields_bind.mpr ⟨a, w₁, hz, hyes⟩⟩

/-- One question after another, unless the first is answered with `true`. -/
theorem Answers.orElse (hx : Answers x w p w₁) (hy : Answers y w₁ q w') :
    Answers (x >>= fun meets => if meets = true then pure true else y) w (p ∧ q) w' where
  no := by
    rintro ⟨hp, hq⟩
    exact yields_bind.mpr ⟨false, w₁, hx.no hp, hy.no hq⟩
  yes hpq := by
    by_cases hp : p
    · obtain ⟨w'', hyes⟩ := hy.yes fun hq => hpq ⟨hp, hq⟩
      exact ⟨w'', yields_bind.mpr ⟨false, w₁, hx.no hp, hyes⟩⟩
    · obtain ⟨w'', hyes⟩ := hx.yes hp
      exact ⟨w'', yields_bind.mpr ⟨true, w'', hyes, yields_pure.mpr ⟨rfl, rfl⟩⟩⟩

theorem answers_false : Answers (pure false) w True w :=
  ⟨fun _ => yields_pure.mpr ⟨rfl, rfl⟩, fun h => absurd trivial h⟩

/-! ## Commands -/

/-- A list holds the actions of all commands. -/
def AllHeld (commands : List Command) : Prop := ∀ c ∈ commands, c.actions.length ≤ maxSteps

theorem allHeld_cons {c : Command} {commands : List Command} :
    AllHeld (c :: commands) ↔ c.actions.length ≤ maxSteps ∧ AllHeld commands :=
  List.forall_mem_cons

theorem allHeld_append {commands others : List Command} :
    AllHeld (commands ++ others) ↔ AllHeld commands ∧ AllHeld others :=
  List.forall_mem_append

/-- A command compiles in one mode as in another. -/
theorem yields_compileCommand_zero {mode : ModeId} {d : CommandDefinition} {c : Command}
    (h : Yields (compileCommand mode d) w c w') :
    Yields (compileCommand 0 d) w { c with mode := 0 } w' := by
  obtain ⟨v, w₁, hget, hparsed⟩ := yields_bind.mp h
  refine yields_bind.mpr ⟨v, w₁, hget, ?_⟩
  split at hparsed
  · exact absurd hparsed not_yields_throw
  · obtain ⟨function, w₂, hfunction, hrest⟩ := yields_bind.mp hparsed
    obtain ⟨actions, w₃, hactions, hpure⟩ := yields_bind.mp hrest
    obtain ⟨rfl, rfl⟩ := yields_pure.mp hpure
    exact yields_bind.mpr ⟨function, w₂, hfunction,
      yields_bind.mpr ⟨actions, w₃, hactions, yields_pure.mpr ⟨rfl, rfl⟩⟩⟩

/-- The action of a command that compiles is scanned to nothing if a list does not hold its steps. -/
theorem CommandOf.any_isNone_scan {t : Grammar.Templates} {mode : ModeId} {d : CommandDefinition}
    {c : Command} (h : CommandOf t mode d c) :
    (d.action.any fun source => (scan source).isNone) = true ↔ ¬c.actions.length ≤ maxSteps := by
  have hactions := h.actions_of
  cases haction : d.action with
  | none =>
    rw [haction] at hactions
    obtain ⟨hnone, -⟩ := hactions
    rw [hnone]
    exact iff_of_false Bool.false_ne_true (not_not_intro (Nat.zero_le _))
  | some source =>
    rw [haction] at hactions
    rw [Option.any_some, Script.scan_of_parse hactions]
    split
    · rename_i hheld
      exact iff_of_false Bool.false_ne_true (not_not_intro hheld)
    · rename_i hmany
      exact iff_of_true rfl hmany

theorem answers_commandsMeetExcess {mode : ModeId} {ds : List CommandDefinition} {cs : List Command}
    (h : Yields (compileCommands mode ds) w cs w') :
    Answers (commandsMeetExcess ds) w (AllHeld cs) w' := by
  induction ds generalizing w cs with
  | nil =>
    obtain ⟨rfl, rfl⟩ := yields_pure.mp h
    exact answers_false.congr (iff_of_true trivial fun _ hc => absurd hc List.not_mem_nil)
  | cons d rest ih =>
    obtain ⟨c, w₁, hc, hrest⟩ := yields_bind.mp h
    obtain ⟨cs, w₂, hcs, hpure⟩ := yields_bind.mp hrest
    obtain ⟨rfl, rfl⟩ := yields_pure.mp hpure
    obtain ⟨hcommand, -⟩ := commandOf_of_compileCommand hc
    have hgrammar : (Grammar.parse w.templates d.grammar).isOk = true := by
      rw [hcommand.grammar_eq]
      rfl
    rw [commandsMeetExcess]
    refine Answers.after (yields_get.mpr ⟨rfl, rfl⟩) ?_
    rw [hgrammar, Bool.and_true]
    by_cases hheld : c.actions.length ≤ maxSteps
    · rw [if_neg (mt hcommand.any_isNone_scan.mp (not_not_intro hheld))]
      refine Answers.after (yields_compileCommand_zero hc) ((ih hcs).congr ?_)
      rw [allHeld_cons, and_iff_right hheld]
    · rw [if_pos (hcommand.any_isNone_scan.mpr hheld)]
      refine ⟨fun hall => absurd (allHeld_cons.mp hall).1 hheld, fun _ => ⟨w, ?_⟩⟩
      exact yields_pure.mpr ⟨rfl, rfl⟩

/-! ## Modes -/

mutual

theorem answers_meetsExcess {w w' : Workspace} (name : String) (parent : Option ModeId) (id : ModeId)
    (grammar : GrammarId) (d : ModeDefinition) {tree : Tree}
    (h : Yields (compileMode name parent id grammar d) w tree w') :
    Answers (meetsExcess d) w (AllHeld tree.commands) w' := by
  match d with
  | ⟨defines, commands, modes⟩ =>
    rw [compileMode] at h
    obtain ⟨_, w₁, hdefines, hcommands⟩ := yields_bind.mp h
    obtain ⟨own, w₂, hown, hchildren⟩ := yields_bind.mp hcommands
    obtain ⟨below, w₃, hbelow, hpure⟩ := yields_bind.mp hchildren
    obtain ⟨rfl, rfl⟩ := yields_pure.mp hpure
    have hanswer := (answers_commandsMeetExcess hown).orElse
      (answers_childrenMeetExcess id (id + 1) grammar [] modes hbelow)
    rw [meetsExcess]
    refine Answers.after hdefines (hanswer.congr ?_)
    rw [allHeld_append, and_comm]

theorem answers_childrenMeetExcess {w w' : Workspace} (parent id : ModeId) (grammar : GrammarId)
    (taken : List String) (modes : List (String × ModeDefinition)) {forest : Forest}
    (h : Yields (compileChildren parent id grammar taken modes) w forest w') :
    Answers (childrenMeetExcess taken modes) w (AllHeld forest.commands) w' := by
  match modes with
  | [] =>
    rw [compileChildren] at h
    obtain ⟨rfl, rfl⟩ := yields_pure.mp h
    rw [childrenMeetExcess]
    exact answers_false.congr (iff_of_true trivial fun _ hc => absurd hc List.not_mem_nil)
  | (name, d) :: rest =>
    rw [compileChildren] at h
    rw [childrenMeetExcess]
    split at h
    · obtain ⟨_, w₁, hthrow, -⟩ := yields_bind.mp h
      exact absurd hthrow not_yields_throw
    · rename_i hfree
      obtain ⟨child, w₂, hchild, hrest⟩ := yields_bind.mp h
      obtain ⟨others, w₃, hothers, hpure⟩ := yields_bind.mp hrest
      obtain ⟨rfl, rfl⟩ := yields_pure.mp hpure
      have hanswer := (answers_meetsExcess (Text.lowercase name) (some parent) id grammar d hchild).orElse
        (answers_childrenMeetExcess parent (id + child.modes.length)
          (grammar + child.commands.length) (taken ++ [Text.lowercase name]) rest hothers)
      dsimp only
      rw [if_neg hfree]
      exact hanswer.congr allHeld_append.symm

end

/-- **Definitions that compile** break compiling down just if there is a command whose actions a list
    does not hold. -/
theorem Tree.breaksDown_iff {t : Grammar.Templates} {d : ModeDefinition} {tree : Tree}
    (h : Tree.compile t d = (.ok tree, w)) :
    Tree.breaksDown t d = true ↔ ∃ c ∈ tree.commands, maxSteps < c.actions.length := by
  have hanswer : Answers (meetsExcess d) ⟨t, []⟩ (AllHeld tree.commands) w :=
    answers_meetsExcess "" none 0 0 d h
  by_cases hheld : AllHeld tree.commands
  · have hno : (meetsExcess d).run.run ⟨t, []⟩ = (.ok false, w) := hanswer.no hheld
    rw [breaksDown, hno]
    refine iff_of_false Bool.false_ne_true ?_
    rintro ⟨c, hc, hmany⟩
    exact Nat.not_le.mpr hmany (hheld c hc)
  · obtain ⟨w'', hyes⟩ := hanswer.yes hheld
    have hyes : (meetsExcess d).run.run ⟨t, []⟩ = (.ok true, w'') := hyes
    rw [breaksDown, hyes]
    refine iff_of_true rfl ?_
    by_contra hnone
    exact hheld fun c hc => Nat.not_lt.mp fun hmany => hnone ⟨c, hc, hmany⟩

end SpokenCommand.Modes
