import Mathlib.Data.List.Forall2
import SpokenCommand.Proofs.Activation.Runs
/-!
What lasts in every run, whatever is done about overlays.

Under an overlay the engine can be moved about, and an overlay can be lifted with another target than
it was put on with, or with one that is no mode at all.  After that the stack and the overlay do not
tell any more which modes are live.  Three things last all the same (`Lasting`):

1. **The stack** leads down the tree.  Numbers grow on the way down, so that no mode is entered twice
   (`Consistent.nodup_stack`).

2. **The recognizer** holds the grammars of the tree, each once and in order
   (`Loaded.holds_recognizer`).

3. **Whole modes**: all grammars of a mode are enabled, or none.  This is the crux.  The sets of grammars
   that never divide a mode (`IsWhole`) are closed under all that `Step` does to what is enabled: taking
   modes away, adding them, and starting from one.  That the grammars of a mode are of this kind is due
   to no grammar belonging to two modes.
-/

namespace SpokenCommand

open Modes

namespace Engine

variable {e e' : Engine} {d : ModeDefinition} {tree : Tree} {op : Operation} {b : Bool}

/-! ## The stack -/

/-- Every mode of a path has a greater number than the one below it. -/
theorem IsPath.isChain {w : Workspace} {stack : List ModeId} (h : IsPath tree stack)
    (hcompiled : Tree.compile .builtin d = (.ok tree, w)) : stack.IsChain (· > ·) := by
  induction stack with
  | nil => exact List.IsChain.nil
  | cons m below ih =>
    obtain ⟨hm, hbelow⟩ := h
    cases below with
    | nil => exact List.IsChain.singleton m
    | cons parent rest =>
      have hlt : parent < m := (Tree.lt_of_mem_children hcompiled hm).1
      exact List.isChain_cons_cons.mpr ⟨hlt, ih hbelow⟩

/-- No mode is on the stack twice. -/
theorem Consistent.nodup_stack (h : e.Consistent d) : e.stack.Nodup := by
  obtain ⟨w, hcompiled⟩ := h.compiled
  have hsorted : e.stack.Pairwise (· > ·) := (h.path.isChain hcompiled).pairwise
  exact hsorted.imp Nat.ne_of_gt

/-! ## The recognizer -/

/-- A loaded grammar is the one of a number: that of the command which goes by it. -/
def Holds (tree : Tree) (g : GrammarId) (l : LoadedGrammar) : Prop :=
  l.id = g ∧ ∃ c, tree.command? g = some c ∧ l.grammar = c.grammar

/-- The recognizer holds the grammars of the modes in preorder. -/
theorem Loaded.holds_recognizer (h : e.Loaded d) :
    List.Forall₂ (Holds e.tree) (e.tree.preorder.flatMap e.tree.grammars) e.recognizer.grammars := by
  rw [← h.ids_eq, Recognizer.ids, List.forall₂_map_left_iff, List.forall₂_same]
  intro l hl
  obtain ⟨c, hc, hgrammar⟩ := h.exists_command hl
  exact ⟨rfl, c, hc, hgrammar.symm⟩

/-- The grammars of all commands are loaded, and no others. -/
theorem Loaded.mem_ids_iff (h : e.Loaded d) {g : Nat} :
    g ∈ e.recognizer.ids ↔ ∃ c, e.tree.command? g = some c := by
  obtain ⟨w, hcompiled⟩ := h.compiled
  constructor
  · intro hg
    rw [h.ids_eq] at hg
    obtain ⟨m, -, hgm⟩ := List.mem_flatMap.mp hg
    obtain ⟨c, hc, -⟩ := Tree.exists_command_of_mem_grammars hcompiled hgm
    exact ⟨c, hc⟩
  · rintro ⟨c, hc⟩
    exact h.mem_ids ((Tree.mem_grammars_iff hcompiled).mpr ⟨c, hc, rfl⟩)

/-! ## Whole modes -/

/-- A set of grammars that divides no mode: it has all grammars of a mode if it has one of them. -/
def IsWhole (tree : Tree) (live : Nat → Prop) : Prop :=
  ∀ m, ∀ g ∈ tree.grammars m, ∀ g' ∈ tree.grammars m, live g → live g'

namespace IsWhole

variable {live live' : Nat → Prop}

theorem or (h : IsWhole tree live) (h' : IsWhole tree live') :
    IsWhole tree fun g => live g ∨ live' g :=
  fun m g hg g' hg' => Or.imp (h m g hg g' hg') (h' m g hg g' hg')

theorem and (h : IsWhole tree live) (h' : IsWhole tree live') :
    IsWhole tree fun g => live g ∧ live' g :=
  fun m g hg g' hg' => And.imp (h m g hg g' hg') (h' m g hg g' hg')

theorem not (h : IsWhole tree live) : IsWhole tree fun g => ¬ live g :=
  fun m g hg g' hg' hdead hlive => hdead (h m g' hg' g hg hlive)

/-- Either all grammars of a mode are in such a set, or none is. -/
theorem all_or_none (h : IsWhole tree live) (m : ModeId) :
    (∀ g ∈ tree.grammars m, live g) ∨ ∀ g ∈ tree.grammars m, ¬ live g := by
  by_cases hlive : ∃ g ∈ tree.grammars m, live g
  · obtain ⟨g, hg, hlive⟩ := hlive
    exact Or.inl fun g' hg' => h m g hg g' hg' hlive
  · exact Or.inr fun g hg hg' => hlive ⟨g, hg, hg'⟩

end IsWhole

/-- A mode divides no mode. -/
theorem Loaded.isWhole_mode (h : e.Loaded d) (m : ModeId) :
    IsWhole e.tree fun g => g ∈ e.tree.grammars m := by
  intro m' g hg g' hg' hm
  obtain rfl : m' = m := h.eq_of_mem hg hm
  exact hg'

/-- Several modes divide no mode. -/
theorem Loaded.isWhole_modes (h : e.Loaded d) (among : ModeId → Prop) :
    IsWhole e.tree fun g => ∃ m, among m ∧ g ∈ e.tree.grammars m := by
  rintro m' g hg g' hg' ⟨m, hm, hgm⟩
  obtain rfl : m' = m := h.eq_of_mem hg hgm
  exact ⟨m', hm, hg'⟩

/-- Nor does what several modes leave. -/
theorem Loaded.isWhole_rest (h : e.Loaded d) (among : ModeId → Prop) :
    IsWhole e.tree fun g => ∀ m, among m → g ∉ e.tree.grammars m := by
  have hnone := (h.isWhole_modes among).not
  simpa only [not_exists, not_and] using hnone

theorem Shows.isWhole {stack : List ModeId} {overlay : Option Overlay} {live : Nat → Prop}
    (h : e.Shows d tree stack overlay live) (hlive : IsWhole tree live) :
    IsWhole e.tree (· ∈ e.enabled) := by
  rw [h.tree_eq]
  intro m g hg g' hg' henabled
  exact (h.mem_enabled g').mpr (hlive m g hg g' hg' ((h.mem_enabled g).mp henabled))

/-- **The step**: no operation divides a mode, however overlays are used. -/
theorem Step.isWhole (hstep : Step e d op b e') (hconsistent : e.Consistent d)
    (h : IsWhole e.tree (· ∈ e.enabled)) : IsWhole e'.tree (· ∈ e'.enabled) := by
  have hloaded : e.Loaded d := hconsistent.toLoaded
  cases hstep with
  | refused hrefused => exact h
  | @loaded definition tree _ hshows =>
    -- what is enabled after a load is a mode of the new tree, whatever was enabled before
    have hroot := hshows.toLoaded.isWhole_mode Tree.root
    rw [hshows.tree_eq] at hroot
    exact hshows.isWhole hroot
  | @moved _ stack _ hmove hshows =>
    have hleft := h.and (hloaded.isWhole_rest (· ∈ e.stack.head?))
    exact hshows.isWhole (hleft.or (hloaded.isWhole_mode (innermost stack)))
  | @entered target _ hfree hshows =>
    have hleft := h.and (hloaded.isWhole_rest (· ∈ e.suppressible))
    exact hshows.isWhole (hleft.or (hloaded.isWhole_mode target))
  | @lifted target o _ hoverlay hshows =>
    have hback := h.or (hloaded.isWhole_modes (· ∈ o.suppressed))
    exact hshows.isWhole (hback.and (hloaded.isWhole_mode target).not)

/-! ## What lasts -/

/-- What every run keeps of the stack, the recognizer and its flags. -/
structure Lasting (e : Engine) : Prop where
  /-- The mode entered first is a child of the root, and each later one a child of the one before. -/
  path : IsPath e.tree e.stack
  nodup_stack : e.stack.Nodup
  /-- What is loaded are the grammars of the modes in preorder, with those of the commands. -/
  holds : List.Forall₂ (Holds e.tree) (e.tree.preorder.flatMap e.tree.grammars) e.recognizer.grammars
  nodup_ids : e.recognizer.ids.Nodup
  /-- Every command's grammar is loaded, and no other. -/
  mem_ids_iff : ∀ g, g ∈ e.recognizer.ids ↔ ∃ c, e.tree.command? g = some c
  /-- A mode is live as a whole or not at all. -/
  all_or_none : ∀ m,
    (∀ g ∈ e.tree.grammars m, g ∈ e.enabled) ∨ ∀ g ∈ e.tree.grammars m, g ∉ e.enabled

theorem Consistent.lasting (h : e.Consistent d) (hwhole : IsWhole e.tree (· ∈ e.enabled)) :
    e.Lasting where
  path := h.path
  nodup_stack := h.nodup_stack
  holds := h.holds_recognizer
  nodup_ids := h.nodup_ids
  mem_ids_iff := fun _ => h.mem_ids_iff
  all_or_none := hwhole.all_or_none

/-- No run divides a mode. -/
theorem isWhole_run (ops : List Operation) :
    IsWhole (empty.run ops).tree (· ∈ (empty.run ops).enabled) := by
  refine throughout_of_step (P := fun e => IsWhole e.tree (· ∈ e.enabled)) ?_ ?_ ops List.prefix_rfl
  · exact fun m g _ g' _ hlive => absurd hlive List.not_mem_nil
  · intro p op _ hwhole
    obtain ⟨d, hconsistent⟩ := consistent_empty.run p
    exact (hconsistent.step op).isWhole hconsistent hwhole

/-- **The run**: all of this holds after any operations in any order, those that fail included. -/
theorem lasting_run (ops : List Operation) : (empty.run ops).Lasting := by
  obtain ⟨d, hconsistent⟩ := consistent_empty.run ops
  exact hconsistent.lasting (isWhole_run ops)

/-- Nothing finer lasts: after a move under an overlay that is lifted with no mode for its target, three
    modes are live at the root. -/
example :
    let e := empty.run [.load sample, .changeMode "Program", .enterExclusive 3, .exitMode,
      .exitExclusive 17]
    e.stack = [] ∧ e.overlay = none ∧
      e.enabled = e.tree.grammars 0 ++ e.tree.grammars 1 ++ e.tree.grammars 3 := by
  decide +kernel

end Engine

end SpokenCommand
