import SpokenCommand.Proofs.Activation.Enabled
/-!
An overlay that is put on and lifted again at once.

Putting an overlay on takes the root and the current mode away and adds its target; lifting it adds what
was taken away, and takes the target away LAST.  Of what was enabled before, there is then

    (enabled ∪ suppressed) \ target,

whatever the order in which single flags are switched (`Consistent.shows_passOverlay`).  Everything else of the
engine is as it was, so that the engine is restored if and only if this set is the one before: nothing of
the target was live, and all of what was suppressed, save the target itself, was (`restored_iff`).

In an engine that is plain, the second is always so and the first says that the target is neither the root
nor the current mode, or has no grammars (`Plain.passOverlay_eq_iff`).  An overlay on the current mode
leaves that mode dead.
-/

namespace SpokenCommand

open Modes

namespace Engine

variable {e : Engine} {d : ModeDefinition} {target : ModeId}

/-- The engine after an overlay on a mode is put on and lifted at once. -/
def passOverlay (e : Engine) (target : ModeId) : Engine :=
  ((e.enterExclusive target).state.exitExclusive target).state

/-! ## What is live afterwards -/

theorem enterExclusive_eq (hfree : e.overlay = none) (target : ModeId) :
    ∃ recognizer, (e.enterExclusive target).result = .ok () ∧
      (e.enterExclusive target).state =
        { e with recognizer, overlay := some ⟨target, e.suppressible⟩ } := by
  obtain ⟨recognizer, hcovered⟩ := e.setModesEnabled_eq e.suppressible false
  rw [enterExclusive, hfree]
  dsimp only
  rw [hcovered]
  exact ⟨_, rfl, rfl⟩

/-- Where there is no overlay, one can be put on and lifted, and nothing changes but the flags. -/
theorem passOverlay_eq (hfree : e.overlay = none) (target : ModeId) :
    (e.enterExclusive target).result = .ok () ∧
      ((e.enterExclusive target).state.exitExclusive target).result = .ok () ∧
        e.passOverlay target = { e with recognizer := (e.passOverlay target).recognizer } := by
  obtain ⟨recognizer, hresult, hentered⟩ := enterExclusive_eq hfree target
  refine ⟨hresult, ?_⟩
  rw [passOverlay, hentered, exitExclusive]
  obtain ⟨recognizer', hlifted⟩ :=
    setModesEnabled_eq { e with recognizer, overlay := none } e.suppressible true
  dsimp only
  rw [hlifted, ← hfree]
  exact ⟨rfl, rfl⟩

theorem Consistent.shows_entered (h : e.Consistent d) (hfree : e.overlay = none) (target : ModeId) :
    (e.enterExclusive target).state.Shows d e.tree e.stack (some ⟨target, e.suppressible⟩) fun g =>
      (g ∈ e.enabled ∧ ∀ m ∈ e.suppressible, g ∉ e.tree.grammars m) ∨ g ∈ e.tree.grammars target := by
  rw [enterExclusive, hfree]
  exact ((h.toLoaded.shows.allOff e.suppressible).on target).withOverlay

theorem Shows.lifted {tree : Tree} {stack : List ModeId} {o : Overlay} {live : Nat → Prop}
    (h : e.Shows d tree stack (some o) live) (target : ModeId) :
    (e.exitExclusive target).state.Shows d tree stack none fun g =>
      (live g ∨ ∃ m ∈ o.suppressed, g ∈ tree.grammars m) ∧ g ∉ tree.grammars target := by
  rw [exitExclusive, h.overlay_eq]
  exact (h.withOverlay.allOn o.suppressed).off target

/-- **What is live afterwards**: what was live or was suppressed, less the target. -/
theorem Consistent.shows_passOverlay (h : e.Consistent d) (hfree : e.overlay = none)
    (target : ModeId) :
    (e.passOverlay target).Shows d e.tree e.stack none fun g =>
      (g ∈ e.enabled ∨ g ∈ e.tree.grammars Tree.root ∨ g ∈ e.tree.grammars e.current) ∧
        g ∉ e.tree.grammars target := by
  refine ((h.shows_entered hfree target).lifted target).congr ?_
  intro g
  have hsuppressed : (∃ m ∈ e.suppressible, g ∈ e.tree.grammars m) ↔
      g ∈ e.tree.grammars Tree.root ∨ g ∈ e.tree.grammars e.current := by
    simp only [mem_suppressible, or_and_right, exists_or, exists_eq_left]
  have hcovered : (∀ m ∈ e.suppressible, g ∉ e.tree.grammars m) ↔
      ¬ ∃ m ∈ e.suppressible, g ∈ e.tree.grammars m := by
    simp only [not_exists, not_and]
  rw [hcovered, hsuppressed]
  -- what was taken away is back, and the target is gone whatever it was
  by_cases htarget : g ∈ e.tree.grammars target
  · simp [htarget]
  · by_cases hroot : g ∈ e.tree.grammars Tree.root ∨ g ∈ e.tree.grammars e.current
    · simp [htarget, hroot]
    · simp [htarget, hroot]

/-! ## When the engine is restored -/

theorem Consistent.passOverlay_eq_iff (h : e.Consistent d) (hfree : e.overlay = none) (target : ModeId) :
    e.passOverlay target = e ↔
      (∀ g ∈ e.tree.grammars target, g ∉ e.enabled) ∧
        ∀ m, m = Tree.root ∨ m = e.current → m ≠ target → ∀ g ∈ e.tree.grammars m, g ∈ e.enabled := by
  have hshows := h.shows_passOverlay hfree target
  constructor
  · intro hsame
    have hlive := hshows.mem_enabled
    rw [hsame] at hlive
    constructor
    · intro g hg henabled
      exact ((hlive g).mp henabled).2 hg
    · intro m hm hne g hg
      refine (hlive g).mpr ⟨Or.inr ?_, ?_⟩
      · rcases hm with rfl | rfl
        · exact Or.inl hg
        · exact Or.inr hg
      · intro htarget
        exact hne (h.eq_of_mem hg htarget)
  · rintro ⟨hdead, hback⟩
    obtain ⟨-, -, heq⟩ := passOverlay_eq hfree target
    have hloaded : (e.passOverlay target).recognizer.loaded = e.recognizer.loaded := by
      rw [hshows.loaded_eq, hshows.tree_eq, h.loaded_eq]
    have henabled : ∀ g, g ∈ (e.passOverlay target).enabled ↔ g ∈ e.enabled := by
      intro g
      rw [hshows.mem_enabled]
      constructor
      · rintro ⟨hlive | hroot | hcurrent, htarget⟩
        · exact hlive
        · exact hback _ (Or.inl rfl) (fun hm => htarget (hm ▸ hroot)) g hroot
        · exact hback _ (Or.inr rfl) (fun hm => htarget (hm ▸ hcurrent)) g hcurrent
      · intro hlive
        exact ⟨Or.inl hlive, fun htarget => hdead g htarget hlive⟩
    have hrecognizer := Recognizer.eq_of_mem_enabled_iff h.nodup_ids hloaded henabled
    rw [heq, hrecognizer]

/-- **Restored or not**: after any run that leaves no overlay, one that is put on any mode and lifted at
    once changes nothing but flags, and these not either if and only if nothing of the mode was live, and
    the root and the current mode, unless they are that mode, were live as a whole. -/
theorem restored_iff (ops : List Operation) (target : ModeId) (hfree : (empty.run ops).overlay = none) :
    let e := empty.run ops
    let entered := e.enterExclusive target
    let lifted := entered.state.exitExclusive target
    entered.result = .ok () ∧ lifted.result = .ok () ∧
      lifted.state = { e with recognizer := lifted.state.recognizer } ∧
        (lifted.state = e ↔
          (∀ g ∈ e.tree.grammars target, g ∉ e.enabled) ∧
            ∀ m, m = Tree.root ∨ m = e.current → m ≠ target →
              ∀ g ∈ e.tree.grammars m, g ∈ e.enabled) := by
  obtain ⟨d, h⟩ := consistent_empty.run ops
  obtain ⟨hentered, hlifted, heq⟩ := passOverlay_eq hfree target
  exact ⟨hentered, hlifted, heq, h.passOverlay_eq_iff hfree target⟩

/-- An overlay on a mode that is not on the stack passes without a trace. -/
theorem restored_in_program :
    (empty.run [.load sample, .changeMode "program"]).overlay = none ∧
      (empty.run [.load sample, .changeMode "program"]).passOverlay 3 =
        empty.run [.load sample, .changeMode "program"] := by
  have hfree : (empty.run [.load sample, .changeMode "program"]).overlay = none := by
    decide +kernel
  refine ⟨hfree, (restored_iff [.load sample, .changeMode "program"] 3 hfree).2.2.2.mpr ⟨?_, ?_⟩⟩
  · decide +kernel
  · rintro m (rfl | rfl) -
    · decide +kernel
    · decide +kernel

/-- An overlay on the current mode leaves it dead. -/
theorem not_restored_in_spell :
    ¬ ∀ ops target, (empty.run ops).overlay = none → target < (empty.run ops).tree.modes.length →
      ((empty.run ops).enterExclusive target).result = .ok () →
        ∀ g, g ∈ ((empty.run ops).passOverlay target).enabled ↔ g ∈ (empty.run ops).enabled := by
  intro h
  have hiff := h [.load sample, .changeMode "spell"] 3 (by decide +kernel) (by decide +kernel)
    (by decide +kernel) 2
  revert hiff
  decide +kernel

/-- In a plain engine, an overlay passes without a trace if and only if its target is neither the root nor
    the current mode, or has no grammars. -/
theorem Plain.passOverlay_eq_iff (hplain : e.Plain) (h : e.Consistent d) (target : ModeId) :
    e.passOverlay target = e ↔
      (target ≠ Tree.root ∧ target ≠ e.current) ∨ e.tree.grammars target = [] := by
  have hback : ∀ m, m = Tree.root ∨ m = e.current → m ≠ target →
      ∀ g ∈ e.tree.grammars m, g ∈ e.enabled := by
    rintro m (rfl | rfl) - g hg
    · exact (hplain.mem_enabled g).mpr (Or.inl hg)
    · exact (hplain.mem_enabled g).mpr (Or.inr hg)
  rw [h.passOverlay_eq_iff hplain.overlay_eq, and_iff_left hback]
  rw [and_or_right, ← h.disjoint_iff, ← h.disjoint_iff]
  simp only [hplain.mem_enabled, not_or, imp_and, forall_and]

end Engine

/-- As long as no overlay has been put on since the last load, the first one passes without a trace if and
    only if its target is neither the root nor the current mode, or has no grammars. -/
theorem History.passOverlay_eq_iff (ops : List Operation) (hfree : (start.run ops).overlaid = false)
    (target : ModeId) :
    let e := (start.run ops).engine
    e.passOverlay target = e ↔
      (target ≠ Tree.root ∧ target ≠ e.current) ∨ e.tree.grammars target = [] := by
  obtain ⟨hconsistent, hplain⟩ := plain_run ops
  exact (hplain hfree).passOverlay_eq_iff hconsistent target

end SpokenCommand
