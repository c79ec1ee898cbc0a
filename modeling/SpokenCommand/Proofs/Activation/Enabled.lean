import Mathlib.Data.List.Find
import Mathlib.Data.List.Sort
import SpokenCommand.Proofs.Activation.Runs
/-!
What is live as long as no overlay is put on.

1. **The history** of a run is the engine together with two things that the engine forgets: the
   definition in effect, and whether an overlay has been put on since it was loaded.

2. **The invariant** (`Plain`): there is no overlay, and the enabled grammars are those of the root and
   of the current mode.  A move keeps it because the root is never switched off and never entered:
   the mode that goes is not the root, and no grammar is shared between two modes.

3. **Lists**: the enabled grammars stand in the order of loading, which is preorder.  The root is the
   first mode in preorder, so that its grammars come first (`Consistent.enabled_eq`).

4. **Recognition** takes the first command of the enabled list that accepts the words
   (`Loaded.recognize_eq`), whatever is enabled.
-/

namespace SpokenCommand

open Modes

/-! ## The history of a run -/

/-- Whether an overlay has been put on since the last definition was loaded, after an operation. -/
def Operation.overlays (overlaid : Bool) : Operation → (succeeded : Bool) → Bool
  | .load _, true => false
  | .enterExclusive _, true => true
  | _, _ => overlaid

/-- An engine with what a run has done to it. -/
structure History where
  engine : Engine
  /-- The definition that was loaded last, of the ones that compile. -/
  definition : ModeDefinition
  /-- Whether an overlay has been put on since then. -/
  overlaid : Bool

namespace History

/-- Nothing has been done to an engine with nothing loaded. -/
def start : History := ⟨.empty, .empty, false⟩

/-- The history after an operation. -/
def after (h : History) (op : Operation) : History :=
  let r := h.engine.perform op
  { engine := r.state
    definition := op.installs h.definition r.result
    overlaid := op.overlays h.overlaid r.result }

/-- The history after operations in order. -/
def run (h : History) (ops : List Operation) : History := ops.foldl after h

/-- What is remembered of a run does not change what the engine does. -/
theorem engine_run {h : History} {ops : List Operation} :
    (h.run ops).engine = h.engine.run ops := by
  induction ops generalizing h with
  | nil => rfl
  | cons op rest ih => exact ih

end History

namespace Engine

variable {e e' : Engine} {d : ModeDefinition} {op : Operation} {b : Bool} {g m : Nat}

/-! ## The invariant -/

/-- There is no overlay, and exactly the root and the current mode are live. -/
structure Plain (e : Engine) : Prop where
  overlay_eq : e.overlay = none
  mem_enabled : ∀ g, g ∈ e.enabled ↔ g ∈ e.tree.grammars Tree.root ∨ g ∈ e.tree.grammars e.current

/-- **The step**: an operation keeps the invariant unless it puts an overlay on, and loading
    establishes it. -/
theorem Step.plain {overlaid : Bool} (hstep : Step e d op b e') (hconsistent : e.Consistent d)
    (h : overlaid = false → e.Plain) (hfree : op.overlays overlaid b = false) : e'.Plain := by
  cases hstep with
  | refused hrefused => cases op <;> exact h hfree
  | @loaded definition tree _ hshows =>
    refine ⟨hshows.overlay_eq, ?_⟩
    intro g
    have hcurrent : e'.current = Tree.root := hshows.current_eq
    rw [hshows.mem_enabled, hshows.tree_eq, hcurrent, or_self]
  | @moved _ stack _ hmove hshows =>
    have hplain : e.Plain := by
      rcases moveTo?_eq_some hmove with ⟨name, target, rfl, -, -⟩ | ⟨rfl, -⟩
      · exact h hfree
      · exact h hfree
    refine ⟨hshows.overlay_eq.trans hplain.overlay_eq, ?_⟩
    intro g
    have hcurrent : e'.current = innermost stack := hshows.current_eq
    rw [hshows.mem_enabled, hshows.tree_eq, hcurrent]
    simp only [hplain.mem_enabled]
    -- what is left of the root and the current mode is the root
    rw [hconsistent.mem_root_iff]
  | entered => exact absurd hfree Bool.noConfusion
  | lifted hoverlay hshows =>
    rw [(h hfree).overlay_eq] at hoverlay
    cases hoverlay

/-! ## The lists -/

theorem flatMap_if {ms live : List Nat} {f : Nat → List Nat} :
    (ms.flatMap fun m => if m ∈ live then f m else []) =
      (ms.filter fun m => decide (m ∈ live)).flatMap f := by
  induction ms with
  | nil => rfl
  | cons m rest ih =>
    rw [List.flatMap_cons, ih]
    by_cases hm : m ∈ live
    · simp [hm]
    · simp [hm]

/-- The current mode is a mode. -/
theorem Consistent.current_lt (h : e.Consistent d) : e.current < e.tree.modes.length := by
  obtain ⟨w, hcompiled⟩ := h.compiled
  rw [current]
  cases hstack : e.stack with
  | nil => exact Tree.length_modes_pos hcompiled
  | cons m below =>
    have hpath := h.path
    rw [hstack] at hpath
    exact (Tree.lt_of_mem_children hcompiled hpath.1).2

/-- The root is before the current mode in preorder. -/
theorem Consistent.filter_preorder (h : e.Consistent d) :
    (e.tree.preorder.filter fun m => decide (m ∈ e.suppressible)) = e.suppressible := by
  obtain ⟨w, hcompiled⟩ := h.compiled
  rw [Tree.preorder_eq_range hcompiled]
  -- two increasing lists with the same members are the same
  have hsorted : e.suppressible.Pairwise (· < ·) := by
    rw [suppressible]
    by_cases hroot : e.current = Tree.root
    · simp [hroot]
    · have hpos : Tree.root < e.current := Nat.pos_of_ne_zero hroot
      simp [hroot, hpos]
  refine (List.pairwise_lt_range.filter _).eq_of_mem_iff hsorted ?_
  intro m
  rw [List.mem_filter, List.mem_range, decide_eq_true_iff]
  constructor
  · rintro ⟨-, hm⟩
    exact hm
  · intro hm
    refine ⟨?_, hm⟩
    rcases mem_suppressible.mp hm with rfl | rfl
    · exact Tree.length_modes_pos hcompiled
    · exact h.current_lt

/-- **The enabled list** of a plain engine: the root's grammars and then the current mode's. -/
theorem Consistent.enabled_eq (h : e.Consistent d) (hplain : e.Plain) :
    e.enabled = e.suppressible.flatMap e.tree.grammars := by
  have hflags : ∀ m ∈ e.tree.preorder,
      ((e.tree.grammars m).filter fun g => decide (g ∈ e.enabled)) =
        if m ∈ e.suppressible then e.tree.grammars m else [] := by
    intro m hm
    by_cases hlive : m ∈ e.suppressible
    · rw [if_pos hlive, List.filter_eq_self]
      intro g hg
      rw [decide_eq_true_iff, hplain.mem_enabled]
      rcases mem_suppressible.mp hlive with rfl | rfl
      · exact Or.inl hg
      · exact Or.inr hg
    · rw [if_neg hlive, List.filter_eq_nil_iff]
      intro g hg
      rw [decide_eq_true_iff, hplain.mem_enabled]
      rintro (hroot | hcurrent)
      · exact hlive (mem_suppressible.mpr (Or.inl (h.eq_of_mem hg hroot)))
      · exact hlive (mem_suppressible.mpr (Or.inr (h.eq_of_mem hg hcurrent)))
  calc e.enabled
      = (e.tree.preorder.flatMap e.tree.grammars).filter fun g => decide (g ∈ e.enabled) := by
        rw [← h.ids_eq]
        exact Recognizer.enabled_eq_filter h.nodup_ids
    _ = e.tree.preorder.flatMap fun m => if m ∈ e.suppressible then e.tree.grammars m else [] := by
        rw [List.filter_flatMap]
        exact List.flatMap_congr hflags
    _ = (e.tree.preorder.filter fun m => decide (m ∈ e.suppressible)).flatMap e.tree.grammars :=
        flatMap_if
    _ = e.suppressible.flatMap e.tree.grammars := by
        rw [h.filter_preorder]

/-! ## Recognition -/

/-- **Recognition** takes the first command of the enabled list that accepts the words. -/
theorem Loaded.recognize_eq (h : e.Loaded d) (phrase : String) :
    e.recognize phrase =
      if Text.words phrase = [] then none
      else (e.enabled.filterMap e.tree.command?).find? fun c =>
        Grammar.accepts c.grammar (Text.words phrase) := by
  rw [recognize, Recognizer.recognize]
  cases hwords : Text.words phrase with
  | nil => rfl
  | cons word rest =>
    rw [if_neg (List.cons_ne_nil word rest), enabled, Recognizer.enabled, List.find?_filterMap,
      List.find?_map, List.find?_filter]
    -- an enabled grammar accepts what the command of its number accepts
    have hsame : ∀ l ∈ e.recognizer.grammars,
        (l.isEnabled && Grammar.accepts l.grammar (word :: rest)) =
          decide (l.isEnabled = true ∧ ((e.tree.command? l.id).any fun c =>
            Grammar.accepts c.grammar (word :: rest)) = true) := by
      intro l hl
      obtain ⟨c, hc, hgrammar⟩ := h.exists_command hl
      rw [hc, Option.any_some, hgrammar, Bool.decide_and, Bool.decide_eq_true, Bool.decide_eq_true]
    show ((e.recognizer.grammars.find? fun l =>
      l.isEnabled && Grammar.accepts l.grammar (word :: rest)).map (·.id)).bind _ = _
    rw [List.find?_congr hsame]
    rfl

end Engine

/-! ## Runs -/

/-- **The run**: an engine is plain until an overlay is put on. -/
theorem History.plain_run (ops : List Operation) :
    (start.run ops).engine.Consistent (start.run ops).definition ∧
      ((start.run ops).overlaid = false → (start.run ops).engine.Plain) := by
  suffices h : ∀ s : History, s.engine.Consistent s.definition →
      (s.overlaid = false → s.engine.Plain) →
      (s.run ops).engine.Consistent (s.run ops).definition ∧
        ((s.run ops).overlaid = false → (s.run ops).engine.Plain) by
    refine h start Engine.consistent_empty fun _ => ⟨rfl, ?_⟩
    intro g
    simp [start, Engine.empty, Engine.enabled, Recognizer.enabled, Recognizer.empty, Tree.grammars,
      Tree.mode?, Tree.empty, Tree.root, Engine.current]
  induction ops with
  | nil => exact fun s hconsistent hplain => ⟨hconsistent, hplain⟩
  | cons op rest ih =>
    intro s hconsistent hplain
    have hstep := hconsistent.step op
    exact ih (s.after op) (hstep.consistent hconsistent) (hstep.plain hconsistent hplain)

/-- **What is live**: as long as no overlay has been put on since the last load, the enabled grammars
    are those of the root and then, if another mode is current, those of the current mode, both in the
    order in which the definition in effect gives the commands; and a phrase is recognized as the first
    of these commands that accepts its words, and as none if it is blank. -/
theorem History.enabled_and_recognized {h : History} (hrun : ∃ ops, start.run ops = h)
    (hfree : h.overlaid = false) :
    h.engine.enabled = h.engine.tree.grammars Tree.root ++
        (if h.engine.current = Tree.root then [] else h.engine.tree.grammars h.engine.current) ∧
      (∀ m, m = Tree.root ∨ m = h.engine.current →
        ∃ t md, h.definition.preorder[m]? = some md ∧
          List.Forall₂ (fun cd g => ∃ c, h.engine.tree.command? g = some c ∧ CommandOf t m cd c)
            md.commands (h.engine.tree.grammars m)) ∧
      ∀ phrase, h.engine.recognize phrase =
        if phrase.toList.all Text.isBlank = true then none
        else (h.engine.enabled.filterMap h.engine.tree.command?).find? fun c =>
          Grammar.accepts c.grammar (Text.words phrase) := by
  obtain ⟨ops, rfl⟩ := hrun
  obtain ⟨hconsistent, hplain⟩ := plain_run ops
  refine ⟨?_, ?_, ?_⟩
  · rw [hconsistent.enabled_eq (hplain hfree), Engine.suppressible]
    by_cases hroot : (start.run ops).engine.current = Tree.root
    · rw [if_pos hroot, if_pos hroot]
      rfl
    · rw [if_neg hroot, if_neg hroot]
      simp
  · intro m hm
    obtain ⟨w, hcompiled⟩ := hconsistent.compiled
    have hlt : m < (start.run ops).definition.preorder.length := by
      rw [Tree.length_preorder hcompiled]
      rcases hm with rfl | rfl
      · exact Tree.length_modes_pos hcompiled
      · exact hconsistent.current_lt
    obtain ⟨t, hcommands⟩ := Tree.commandsOf_grammars hcompiled (List.getElem?_eq_getElem hlt)
    exact ⟨t, _, List.getElem?_eq_getElem hlt, hcommands⟩
  · intro phrase
    rw [hconsistent.recognize_eq]
    simp only [Text.words_eq_nil]

/-- A mode is entered after a load, a load that fails, and an exit that fails. -/
def programRun : List Operation :=
  [.load Engine.sample, .load ⟨[], [⟨none, "(", some "", none⟩], []⟩, .exitExclusive 3,
    .changeMode "Program"]

/-- The failures do not count: the root and the mode are live. -/
theorem History.enabled_in_program :
    (start.run programRun).overlaid = false ∧ (start.run programRun).engine.enabled = [3, 1] := by
  have hfree : (start.run programRun).overlaid = false := by
    decide +kernel
  refine ⟨hfree, (enabled_and_recognized ⟨programRun, rfl⟩ hfree).1.trans ?_⟩
  decide +kernel

end SpokenCommand
