import SpokenCommand.Proofs.Activation.Runs
import SpokenCommand.Proofs.Modes.Demands
import SpokenCommand.Proofs.Modes.Shape
/-!
Operations that fail.

1. **Why** an operation fails is said for each kind in terms of what the engine is in, and not of how it
   looks things up: a mode is not entered if no mode has the current one for its parent and goes by that
   name (`Consistent.changeMode_eq_error_iff`), and definitions are not loaded if one of their demands,
   wherever it stands in the tree, is not met where it stands (`result_load`).

2. **Leaving out** of a run what fails leaves the rest as it was: the same reactions in the same order,
   each with the same engine afterwards (`reactions_succeeding`).  All that is needed for this is that an
   operation that fails changes nothing, and so it holds from any engine on.
-/

namespace SpokenCommand

open Modes

namespace Engine

variable {e : Engine} {d : ModeDefinition} {op : Operation}

/-! ## Why operations fail -/

/-- A mode is entered unless no mode has the current one for its parent and goes by that name. -/
theorem Consistent.changeMode_eq_error_iff (h : e.Consistent d) (name : String)
    (err : NavigationError) :
    (e.changeMode name).result = .error err ↔
      err = .unknownMode (Text.lowercase name) ∧
        ∀ c mode, e.tree.mode? c = some mode → mode.parent = some e.current →
          mode.name ≠ Text.lowercase name := by
  obtain ⟨w, hcompiled⟩ := h.compiled
  have hnone : e.tree.child? e.current name = none ↔
      ∀ c mode, e.tree.mode? c = some mode → mode.parent = some e.current →
        mode.name ≠ Text.lowercase name := by
    simp only [Tree.child?_eq_none_iff, Tree.isLinked_iff hcompiled, not_exists, not_and, ne_eq]
  rw [← hnone, changeMode]
  cases e.tree.child? e.current name with
  | none => simp [eq_comm]
  | some target => simp

theorem exitMode_eq_error_iff (err : NavigationError) :
    e.exitMode.result = .error err ↔ err = .atRoot ∧ e.stack = [] := by
  rw [exitMode]
  cases e.stack with
  | nil => simp [eq_comm]
  | cons left below => simp

theorem enterExclusive_eq_error_iff (target : ModeId) (err : OverlayError) :
    (e.enterExclusive target).result = .error err ↔ err = .alreadyActive ∧ e.overlay ≠ none := by
  rw [enterExclusive]
  cases e.overlay with
  | none => simp
  | some o => simp [eq_comm]

theorem exitExclusive_eq_error_iff (target : ModeId) (err : OverlayError) :
    (e.exitExclusive target).result = .error err ↔ err = .notActive ∧ e.overlay = none := by
  rw [exitExclusive]
  cases e.overlay with
  | none => simp [eq_comm]
  | some o => simp

/-- Definitions are loaded if all their demands are met, and otherwise fail by the first that breaks. -/
theorem result_load (e : Engine) (definition : ModeDefinition) :
    match (e.load definition).result with
    | .ok _ => AllMet .builtin definition.demands
    | .error err => FirstBreaks .builtin definition.demands err := by
  have hends := Tree.ends_compile .builtin definition
  rw [load]
  rcases hcompile : Tree.compile .builtin definition with ⟨err | tree, w⟩
  · rw [hcompile] at hends
    cases hends with
    | broken hbreaks => exact hbreaks
  · rw [hcompile] at hends
    cases hends with
    | met hmet hfiled => exact hmet

/-! ## Leaving out what fails -/

/-- What comes of operations in order: with each its answer, what it makes known and the engine after
    it. -/
def reactions (e : Engine) : List Operation → List (Reaction Engine Bool)
  | [] => []
  | op :: rest => e.perform op :: (e.perform op).state.reactions rest

/-- The operations of a run that succeed. -/
def succeeding (e : Engine) : List Operation → List Operation
  | [] => []
  | op :: rest =>
    if (e.perform op).result then op :: (e.perform op).state.succeeding rest
    else (e.perform op).state.succeeding rest

theorem run_cons (op : Operation) (ops : List Operation) :
    e.run (op :: ops) = (e.perform op).state.run ops := rfl

/-- **The run**: those that succeed come to the same without those that fail, one by one and in the end. -/
theorem reactions_succeeding (e : Engine) (ops : List Operation) :
    e.reactions (e.succeeding ops) = (e.reactions ops).filter (·.result) ∧
      e.run (e.succeeding ops) = e.run ops := by
  induction ops generalizing e with
  | nil => exact ⟨rfl, rfl⟩
  | cons op rest ih =>
    obtain ⟨hreactions, hrun⟩ := ih (e.perform op).state
    rw [succeeding, reactions, run_cons, List.filter_cons]
    by_cases hresult : (e.perform op).result = true
    · rw [if_pos hresult, if_pos hresult, reactions, run_cons, hreactions, hrun]
      exact ⟨rfl, rfl⟩
    · have hsame := (perform_of_failed (Bool.eq_false_iff.mpr hresult)).1
      rw [hsame] at hreactions hrun ⊢
      rw [if_neg hresult, if_neg hresult]
      exact ⟨hreactions, hrun⟩

/-- **Failures**: in an engine that any run has led to,

    * an operation that fails changes nothing, neither tree, templates, stack nor overlay, nor any flag,
      and whatever is done later comes to the same as without it;
    * more generally, of whatever is done later, what succeeds comes to the same without what fails;
    * a mode is not entered exactly if the current mode has no child of that name in lowercase, and not
      left exactly if the stack is empty; an overlay is not put on exactly if there is one, and not
      lifted exactly if there is none;
    * definitions are not loaded exactly if one of their demands breaks where all before it are met. -/
theorem failed_changes_nothing (ops : List Operation) :
    let e := empty.run ops
    (∀ op, (e.perform op).result = false → (e.perform op).state = e ∧
      ∀ later, e.reactions (op :: later) = e.perform op :: e.reactions later ∧
        e.run (op :: later) = e.run later) ∧
    (∀ later, e.reactions (e.succeeding later) = (e.reactions later).filter (·.result) ∧
      e.run (e.succeeding later) = e.run later) ∧
    (∀ name err, (e.changeMode name).result = .error err ↔
      err = .unknownMode (Text.lowercase name) ∧
        ∀ c mode, e.tree.mode? c = some mode → mode.parent = some e.current →
          mode.name ≠ Text.lowercase name) ∧
    (∀ err, e.exitMode.result = .error err ↔ err = .atRoot ∧ e.stack = []) ∧
    (∀ target err, (e.enterExclusive target).result = .error err ↔
      err = .alreadyActive ∧ e.overlay ≠ none) ∧
    (∀ target err, (e.exitExclusive target).result = .error err ↔
      err = .notActive ∧ e.overlay = none) ∧
    ∀ definition,
      match (e.load definition).result with
      | .ok _ => AllMet .builtin definition.demands
      | .error err => FirstBreaks .builtin definition.demands err := by
  obtain ⟨d, h⟩ := consistent_empty.run ops
  refine ⟨?_, reactions_succeeding _, h.changeMode_eq_error_iff, exitMode_eq_error_iff,
    enterExclusive_eq_error_iff, exitExclusive_eq_error_iff, result_load _⟩
  intro op hfailed
  have hsame := (perform_of_failed hfailed).1
  refine ⟨hsame, ?_⟩
  intro later
  rw [reactions, run_cons, hsame]
  exact ⟨rfl, rfl⟩

/-- Of a run with an operation of every kind that fails, what succeeds is one load, and an overlay. -/
example :
    let ops : List Operation := [.exitMode, .exitExclusive 3, .load sample, .changeMode "rust",
      .enterExclusive 3, .load ⟨[], [⟨none, "(", some "", none⟩], []⟩, .enterExclusive 1]
    (empty.reactions ops).map (·.result) = [false, false, true, false, true, false, false] ∧
      (empty.run ops).enabled = (empty.run [.load sample, .enterExclusive 3]).enabled := by
  decide +kernel

end Engine

end SpokenCommand
