import SpokenCommand.Proofs.Activation.Runs
/-!
What is live under an overlay, and after it.

An overlay is to be EXCLUSIVE: while it is on, the enabled grammars are those of its target.  And once
it is lifted nothing STALE is to be live: every enabled grammar belongs to the root or to the current
mode.  Moving about the tree breaks both, because a move switches modes off and on as if there were no
overlay, and lifting switches on what was suppressed on entry, wherever the engine is by then.

1. **Exclusive** (`KeepsExclusive`): a run is exclusive throughout if and only if every overlay is put
   on where nothing stale is live, and no move under it switches on a mode with grammars other than the
   target, or switches the target off.

2. **Fresh** (`Restores`): nothing stale is ever live if and only if every overlay is lifted in the mode
   in which it was put on, save for suppressed modes that have no grammars, are the target or the root.
   The invariant that carries this (`Bounded`) says what may be live under an overlay: the root, the
   current mode and the target.

3. **Undisturbed** runs, in which nothing moves under an overlay, are therefore exclusive and fresh.
-/

namespace SpokenCommand

open Modes

namespace Engine

variable {e e' : Engine} {d : ModeDefinition} {op : Operation} {b : Bool} {g m : Nat}

/-! ## Exclusive -/

/-- Under an overlay, the enabled grammars are those of its target. -/
def Exclusive (e : Engine) : Prop :=
  ∀ o, e.overlay = some o → ∀ g, g ∈ e.enabled ↔ g ∈ e.tree.grammars o.target

/-- An operation that an exclusive engine stays exclusive under. -/
structure KeepsExclusive (e : Engine) (op : Operation) : Prop where
  /-- An overlay is put on where nothing is live but what it suppresses and its target. -/
  entering : ∀ target, op = .enterExclusive target → e.overlay = none → ∀ g ∈ e.enabled,
    g ∈ e.tree.grammars Tree.root ∨ g ∈ e.tree.grammars e.current ∨ g ∈ e.tree.grammars target
  /-- A move under an overlay switches on its target or a mode without grammars, and does not switch
      off its target, unless that has no grammars. -/
  moving : ∀ stack o, e.moveTo? op = some stack → e.overlay = some o →
    (innermost stack = o.target ∨ e.tree.grammars (innermost stack) = []) ∧
      ∀ m ∈ e.stack.head?, m ≠ o.target ∨ e.tree.grammars m = []

/-- Putting an overlay on is exclusive if and only if nothing else is live. -/
theorem entered_exclusive_iff {target : Nat} :
    (∀ g, ((g ∈ e.enabled ∧ ∀ m ∈ e.suppressible, g ∉ e.tree.grammars m) ∨
        g ∈ e.tree.grammars target) ↔ g ∈ e.tree.grammars target) ↔
      ∀ g ∈ e.enabled, g ∈ e.tree.grammars Tree.root ∨ g ∈ e.tree.grammars e.current ∨
        g ∈ e.tree.grammars target := by
  constructor
  · intro h g hg
    by_contra hnot
    rw [not_or, not_or] at hnot
    obtain ⟨hroot, hcurrent, htarget⟩ := hnot
    refine htarget ((h g).mp (Or.inl ⟨hg, ?_⟩))
    intro m hm
    rcases mem_suppressible.mp hm with rfl | rfl
    · exact hroot
    · exact hcurrent
  · intro h g
    constructor
    · rintro (⟨hg, hnot⟩ | htarget)
      · rcases h g hg with hroot | hcurrent | htarget
        · exact absurd hroot (hnot _ (mem_suppressible.mpr (Or.inl rfl)))
        · exact absurd hcurrent (hnot _ (mem_suppressible.mpr (Or.inr rfl)))
        · exact htarget
      · exact htarget
    · exact Or.inr

/-- A move is exclusive if and only if it switches on nothing but the target and leaves that on. -/
theorem Consistent.moved_exclusive_iff (h : e.Consistent d) {stack : List ModeId} {target : Nat}
    (hmove : e.moveTo? op = some stack) :
    (∀ g, ((g ∈ e.tree.grammars target ∧ ∀ m ∈ e.stack.head?, g ∉ e.tree.grammars m) ∨
        g ∈ e.tree.grammars (innermost stack)) ↔ g ∈ e.tree.grammars target) ↔
      (innermost stack = target ∨ e.tree.grammars (innermost stack) = []) ∧
        ∀ m ∈ e.stack.head?, m ≠ target ∨ e.tree.grammars m = [] := by
  constructor
  · intro hiff
    constructor
    · refine h.subset_iff.mp ?_
      intro g hshown
      exact (hiff g).mp (Or.inr hshown)
    · intro m hm
      refine h.disjoint_iff.mp ?_
      intro g hg htarget
      -- what goes is not what comes, so that a grammar of the target would go
      rcases (hiff g).mpr htarget with ⟨-, hnot⟩ | hshown
      · exact hnot m hm hg
      · exact h.ne_of_moveTo? hmove hm (h.eq_of_mem hg hshown)
  · rintro ⟨hon, hoff⟩ g
    constructor
    · rintro (⟨hg, -⟩ | hshown)
      · exact hg
      · exact h.subset_iff.mpr hon g hshown
    · intro hg
      refine Or.inl ⟨hg, ?_⟩
      intro m hm hgm
      exact h.disjoint_iff.mpr (hoff m hm) g hgm hg

/-- **The step**: an exclusive engine stays exclusive under exactly these operations. -/
theorem Step.exclusive_iff (hstep : Step e d op b e') (h : e.Consistent d)
    (hexclusive : e.Exclusive) : e'.Exclusive ↔ e.KeepsExclusive op := by
  cases hstep with
  | refused hrefused =>
    refine iff_of_true hexclusive ⟨?_, ?_⟩
    · rintro target rfl hfree
      exact absurd hfree hrefused
    · intro stack o hmove
      rw [moveTo?_of_refused hrefused] at hmove
      cases hmove
  | @loaded definition tree _ hshows =>
    refine iff_of_true ?_ ⟨?_, ?_⟩
    · intro o ho
      rw [hshows.overlay_eq] at ho
      cases ho
    · intro target hop
      cases hop
    · intro stack o hmove
      cases hmove
  | @moved _ stack _ hmove hshows =>
    constructor
    · intro hexclusive'
      refine ⟨?_, ?_⟩
      · rintro target rfl
        cases hmove
      · intro stack' o hmove' ho
        obtain rfl : stack = stack' := Option.some.inj (hmove.symm.trans hmove')
        refine (h.moved_exclusive_iff hmove).mp ?_
        intro g
        have hg := hexclusive' o (hshows.overlay_eq.trans ho) g
        rwa [hshows.mem_enabled, hshows.tree_eq, hexclusive o ho] at hg
    · intro hkeeps o ho g
      rw [hshows.overlay_eq] at ho
      rw [hshows.mem_enabled, hshows.tree_eq, hexclusive o ho]
      exact (h.moved_exclusive_iff hmove).mpr (hkeeps.moving stack o hmove ho) g
  | @entered target _ hfree hshows =>
    constructor
    · intro hexclusive'
      refine ⟨?_, ?_⟩
      · rintro _ ⟨rfl⟩ -
        refine entered_exclusive_iff.mp ?_
        intro g
        have hg := hexclusive' _ hshows.overlay_eq g
        rwa [hshows.mem_enabled, hshows.tree_eq] at hg
      · intro stack o hmove
        cases hmove
    · intro hkeeps o ho g
      rw [hshows.overlay_eq] at ho
      obtain rfl := Option.some.inj ho
      rw [hshows.mem_enabled, hshows.tree_eq]
      exact entered_exclusive_iff.mpr (hkeeps.entering target rfl hfree) g
  | lifted hoverlay hshows =>
    refine iff_of_true ?_ ⟨?_, ?_⟩
    · intro o ho
      rw [hshows.overlay_eq] at ho
      cases ho
    · intro target hop
      cases hop
    · intro stack o hmove
      cases hmove

theorem exclusive_empty : empty.Exclusive := by
  intro o ho
  cases ho

/-- **Exclusivity**: an overlay is exclusive throughout a run if and only if every overlay is put on
    where nothing is live but the root, the current mode and its target, and every move under an
    overlay switches on its target or a mode without grammars, and does not switch off its target. -/
theorem exclusive_throughout_iff (ops : List Operation) :
    (∀ p, p <+: ops → (empty.run p).Exclusive) ↔
      ∀ p op, p ++ [op] <+: ops → (empty.run p).KeepsExclusive op := by
  refine throughout_iff exclusive_empty ?_
  intro p op _ hexclusive
  obtain ⟨d, h⟩ := consistent_empty.run p
  exact Step.exclusive_iff (h.step op) h hexclusive

/-- A mode that is entered under an overlay is live beside its target. -/
theorem not_exclusive_in_child :
    ¬ (empty.run [.load sample, .enterExclusive 3, .changeMode "program"]).Exclusive := by
  intro h
  have hoverlay : (empty.run [.load sample, .enterExclusive 3, .changeMode "program"]).overlay =
      some ⟨3, [0]⟩ := by
    decide +kernel
  have hiff := h _ hoverlay 1
  revert hiff
  decide +kernel

/-! ## Fresh -/

/-- Without an overlay, nothing is live but the root and the current mode.  Runs keep this only
    together with what may be live under an overlay. -/
def Fresh (e : Engine) : Prop :=
  e.overlay = none → ∀ g ∈ e.enabled,
    g ∈ e.tree.grammars Tree.root ∨ g ∈ e.tree.grammars e.current

/-- Nothing is live but the root, the current mode and the target of the overlay. -/
def Bounded (e : Engine) : Prop :=
  ∀ g ∈ e.enabled, g ∈ e.tree.grammars Tree.root ∨ g ∈ e.tree.grammars e.current ∨
    ∃ o, e.overlay = some o ∧ g ∈ e.tree.grammars o.target

/-- If the operation lifts the overlay, then what this restores is the root, the current mode, the
    target, which goes at once, or has no grammars. -/
def Restores (e : Engine) (op : Operation) : Prop :=
  ∀ target o, op = .exitExclusive target → e.overlay = some o → ∀ m ∈ o.suppressed,
    m = Tree.root ∨ m = e.current ∨ m = o.target ∨ e.tree.grammars m = []

/-- Whether the operation, if it lifts the overlay, names its target. -/
def namesTarget (e : Engine) : Operation → Bool
  | .exitExclusive target => e.exclusiveTarget.all fun own => own == target
  | _ => true

/-- Whether all operations of a run that lift an overlay name its target. -/
def namesTargets (e : Engine) : List Operation → Bool
  | [] => true
  | op :: rest => e.namesTarget op && (e.perform op).state.namesTargets rest

theorem namesTarget_of_append {ops p : List Operation} (h : e.namesTargets ops = true)
    (hp : p ++ [op] <+: ops) : (e.run p).namesTarget op = true := by
  induction p generalizing e ops with
  | nil =>
    obtain ⟨rest, rfl⟩ := hp
    exact (Bool.and_eq_true_iff.mp h).1
  | cons first others ih =>
    obtain ⟨rest, rfl⟩ := hp
    exact ih (Bool.and_eq_true_iff.mp h).2 ⟨rest, rfl⟩

/-- Lifting an overlay is clean if and only if it restores nothing but the root and the current
    mode. -/
theorem Consistent.lifted_bounded_iff (h : e.Consistent d) (hbounded : e.Bounded) {o : Overlay}
    (hoverlay : e.overlay = some o) :
    (∀ g, (g ∈ e.enabled ∨ ∃ m ∈ o.suppressed, g ∈ e.tree.grammars m) ∧
        g ∉ e.tree.grammars o.target →
          g ∈ e.tree.grammars Tree.root ∨ g ∈ e.tree.grammars e.current) ↔
      ∀ m ∈ o.suppressed,
        m = Tree.root ∨ m = e.current ∨ m = o.target ∨ e.tree.grammars m = [] := by
  constructor
  · intro hclean m hm
    -- one grammar of the mode shows whose it is
    cases hgrammars : e.tree.grammars m with
    | nil => exact Or.inr (Or.inr (Or.inr rfl))
    | cons g rest =>
      have hg : g ∈ e.tree.grammars m := hgrammars ▸ List.mem_cons_self
      by_cases htarget : g ∈ e.tree.grammars o.target
      · exact Or.inr (Or.inr (Or.inl (h.eq_of_mem hg htarget)))
      · rcases hclean g ⟨Or.inr ⟨m, hm, hg⟩, htarget⟩ with hroot | hcurrent
        · exact Or.inl (h.eq_of_mem hg hroot)
        · exact Or.inr (Or.inl (h.eq_of_mem hg hcurrent))
  · rintro hrestores g ⟨hg | ⟨m, hm, hg⟩, htarget⟩
    · rcases hbounded g hg with hroot | hcurrent | ⟨o', ho', hown⟩
      · exact Or.inl hroot
      · exact Or.inr hcurrent
      · obtain rfl : o = o' := Option.some.inj (hoverlay.symm.trans ho')
        exact absurd hown htarget
    · rcases hrestores m hm with rfl | rfl | rfl | hempty
      · exact Or.inl hg
      · exact Or.inr hg
      · exact absurd hg htarget
      · rw [hempty] at hg
        exact absurd hg List.not_mem_nil

/-- **The step**: what is live stays bounded under exactly the operations that restore nothing else. -/
theorem Step.bounded_iff (hstep : Step e d op b e') (h : e.Consistent d) (hbounded : e.Bounded)
    (hnames : e.namesTarget op = true) : e'.Bounded ↔ e.Restores op := by
  cases hstep with
  | refused hrefused =>
    refine iff_of_true hbounded ?_
    rintro target o rfl ho
    rw [show e.overlay = none from hrefused] at ho
    cases ho
  | @loaded definition tree _ hshows =>
    refine iff_of_true ?_ ?_
    · intro g hg
      rw [hshows.tree_eq]
      exact Or.inl ((hshows.mem_enabled g).mp hg)
    · intro target o hop
      cases hop
  | @moved _ stack _ hmove hshows =>
    refine iff_of_true ?_ ?_
    · intro g hg
      have hcurrent : e'.current = innermost stack := hshows.current_eq
      rw [hshows.tree_eq, hcurrent, hshows.overlay_eq]
      rcases (hshows.mem_enabled g).mp hg with ⟨hlive, hnot⟩ | hshown
      · rcases hbounded g hlive with hroot | hcovered | htarget
        · exact Or.inl hroot
        · exact Or.inl (h.mem_root_iff.mp ⟨Or.inr hcovered, hnot⟩)
        · exact Or.inr (Or.inr htarget)
      · exact Or.inr (Or.inl hshown)
    · rintro target o rfl
      cases hmove
  | @entered target _ hfree hshows =>
    refine iff_of_true ?_ ?_
    · intro g hg
      have hcurrent : e'.current = e.current := hshows.current_eq
      rw [hshows.tree_eq, hcurrent, hshows.overlay_eq]
      rcases (hshows.mem_enabled g).mp hg with ⟨hlive, hnot⟩ | htarget
      · rcases hbounded g hlive with hroot | hcovered | ⟨o, ho, -⟩
        · exact Or.inl hroot
        · exact Or.inr (Or.inl hcovered)
        · rw [hfree] at ho
          cases ho
      · exact Or.inr (Or.inr ⟨_, rfl, htarget⟩)
    · intro target' o hop
      cases hop
  | @lifted target o _ hoverlay hshows =>
    obtain rfl : o.target = target := by
      rw [namesTarget, exclusiveTarget, hoverlay] at hnames
      exact beq_iff_eq.mp hnames
    have hcurrent : e'.current = e.current := hshows.current_eq
    have hclean : e'.Bounded ↔
        ∀ g, (g ∈ e.enabled ∨ ∃ m ∈ o.suppressed, g ∈ e.tree.grammars m) ∧
          g ∉ e.tree.grammars o.target →
            g ∈ e.tree.grammars Tree.root ∨ g ∈ e.tree.grammars e.current := by
      -- without an overlay, the bound has no target
      rw [Bounded, hshows.tree_eq, hcurrent, hshows.overlay_eq]
      simp only [hshows.mem_enabled]
      simp
    rw [hclean, h.lifted_bounded_iff hbounded hoverlay]
    constructor
    · rintro hrestores _ o' - ho'
      obtain rfl : o = o' := Option.some.inj (hoverlay.symm.trans ho')
      exact hrestores
    · intro hrestores
      exact hrestores o.target o rfl hoverlay

theorem bounded_empty : empty.Bounded := by
  intro g hg
  exact absurd hg List.not_mem_nil

theorem Bounded.fresh (h : e.Bounded) : e.Fresh := by
  intro hfree g hg
  rcases h g hg with hroot | hcurrent | ⟨o, ho, -⟩
  · exact Or.inl hroot
  · exact Or.inr hcurrent
  · rw [hfree] at ho
    cases ho

/-- An engine that is fresh after an operation is bounded after it: only lifting an overlay can break
    the bound, and then there is none any more. -/
theorem Step.bounded_of_fresh (hstep : Step e d op b e') (h : e.Consistent d) (hbounded : e.Bounded)
    (hnames : e.namesTarget op = true) (hfresh : e'.Fresh) : e'.Bounded := by
  by_cases hfree : e'.overlay = none
  · intro g hg
    exact (hfresh hfree g hg).imp_right Or.inl
  · refine (hstep.bounded_iff h hbounded hnames).mpr ?_
    rintro target o rfl ho
    cases hstep with
    | refused hrefused => exact absurd (show e.overlay = none from hrefused) hfree
    | moved hmove hshows => cases hmove
    | lifted hoverlay hshows => exact absurd hshows.overlay_eq hfree

/-- Throughout a run, freshness and the invariant that carries it are the same. -/
theorem fresh_iff_bounded {ops : List Operation} (hnames : empty.namesTargets ops = true) :
    (∀ p, p <+: ops → (empty.run p).Fresh) ↔ ∀ p, p <+: ops → (empty.run p).Bounded := by
  constructor
  · intro hfresh
    apply throughout_of_step bounded_empty
    intro p op hp hbounded
    obtain ⟨d, h⟩ := consistent_empty.run p
    have hafter := hfresh (p ++ [op]) hp
    rw [run_append] at hafter
    exact Step.bounded_of_fresh (h.step op) h hbounded (namesTarget_of_append hnames hp) hafter
  · intro hbounded p hp
    exact (hbounded p hp).fresh

/-- **Freshness**: nothing stale is ever live in a run if and only if every overlay is lifted where
    what it suppressed is the root, the current mode, its target or a mode without grammars. -/
theorem fresh_throughout_iff (ops : List Operation) (hnames : empty.namesTargets ops = true) :
    (∀ p, p <+: ops → (empty.run p).Fresh) ↔
      ∀ p op, p ++ [op] <+: ops → (empty.run p).Restores op := by
  rw [fresh_iff_bounded hnames]
  refine throughout_iff bounded_empty ?_
  intro p op hp hbounded
  obtain ⟨d, h⟩ := consistent_empty.run p
  exact Step.bounded_iff (h.step op) h hbounded (namesTarget_of_append hnames hp)

/-- A mode is left under an overlay that was put on in it. -/
def leavingRun : List Operation :=
  [.load sample, .changeMode "program", .enterExclusive 3, .exitMode, .exitExclusive 3]

/-- The mode that was left is live again. -/
theorem enabled_leavingRun : (empty.run leavingRun).overlay = none ∧
    1 ∈ (empty.run leavingRun).enabled ∧
    1 ∉ (empty.run leavingRun).tree.grammars Tree.root ∧
    1 ∉ (empty.run leavingRun).tree.grammars (empty.run leavingRun).current := by
  decide +kernel

theorem not_restores_leavingRun : empty.namesTargets leavingRun = true ∧
    ¬ ∀ p op, p ++ [op] <+: leavingRun → (empty.run p).Restores op := by
  have hnames : empty.namesTargets leavingRun = true := by
    decide +kernel
  refine ⟨hnames, ?_⟩
  intro hrestores
  obtain ⟨hfree, hlive, hroot, hcurrent⟩ := enabled_leavingRun
  rcases (fresh_throughout_iff leavingRun hnames).mpr hrestores _ List.prefix_rfl hfree 1 hlive with
    h | h
  · exact hroot h
  · exact hcurrent h

/-- A mode that is left under an overlay is live again once this is lifted. -/
theorem not_fresh_after_leaving : ¬ (empty.run leavingRun).Fresh := by
  intro h
  obtain ⟨hfree, hlive, hroot, hcurrent⟩ := enabled_leavingRun
  rcases h hfree 1 hlive with h | h
  · exact hroot h
  · exact hcurrent h

/-! ## Undisturbed -/

/-- What holds as long as nothing moves under an overlay. -/
structure Undisturbed (e : Engine) : Prop where
  exclusive : e.Exclusive
  bounded : e.Bounded
  /-- What the overlay suppressed is what it would suppress now. -/
  suppressed : ∀ o, e.overlay = some o → ∀ m ∈ o.suppressed, m = Tree.root ∨ m = e.current

theorem undisturbed_empty : empty.Undisturbed := by
  refine ⟨exclusive_empty, bounded_empty, ?_⟩
  intro o ho
  cases ho

theorem Step.undisturbed (hstep : Step e d op b e') (h : e.Consistent d) (hbefore : e.Undisturbed)
    (hnames : e.namesTarget op = true) (hstill : e.overlay ≠ none → e.moveTo? op = none) :
    e'.Undisturbed := by
  have hmoveless : ∀ stack, e.moveTo? op = some stack → e.overlay = none := by
    intro stack hmove
    by_contra hoverlay
    rw [hstill hoverlay] at hmove
    cases hmove
  refine ⟨(hstep.exclusive_iff h hbefore.exclusive).mpr ⟨?_, ?_⟩,
    (hstep.bounded_iff h hbefore.bounded hnames).mpr ?_, ?_⟩
  · intro target _ hfree g hg
    exact (hbefore.bounded.fresh hfree g hg).imp_right Or.inl
  · intro stack o hmove ho
    rw [hmoveless stack hmove] at ho
    cases ho
  · intro target o _ ho m hm
    exact (hbefore.suppressed o ho m hm).imp_right Or.inl
  · intro o ho
    cases hstep with
    | refused hrefused => exact hbefore.suppressed o ho
    | loaded hshows =>
      rw [hshows.overlay_eq] at ho
      cases ho
    | moved hmove hshows =>
      rw [hshows.overlay_eq, hmoveless _ hmove] at ho
      cases ho
    | entered hfree hshows =>
      have hcurrent : e'.current = e.current := hshows.current_eq
      rw [hshows.overlay_eq] at ho
      obtain rfl := Option.some.inj ho
      rw [hcurrent]
      intro m hm
      exact mem_suppressible.mp hm
    | lifted hoverlay hshows =>
      rw [hshows.overlay_eq] at ho
      cases ho

/-- **Undisturbed overlays**: if nothing moves under an overlay, then overlays are exclusive, and
    nothing stale is live without one. -/
theorem exclusive_and_fresh_of_undisturbed {ops : List Operation}
    (hnames : empty.namesTargets ops = true)
    (hstill : ∀ p op, p ++ [op] <+: ops → (empty.run p).overlay ≠ none →
      (empty.run p).moveTo? op = none) :
    ∀ p, p <+: ops → (empty.run p).Exclusive ∧ (empty.run p).Fresh := by
  have hundisturbed : ∀ p, p <+: ops → (empty.run p).Undisturbed := by
    apply throughout_of_step undisturbed_empty
    intro p op hp hbefore
    obtain ⟨d, h⟩ := consistent_empty.run p
    exact Step.undisturbed (h.step op) h hbefore (namesTarget_of_append hnames hp)
      (hstill p op hp)
  intro p hp
  exact ⟨(hundisturbed p hp).exclusive, (hundisturbed p hp).bounded.fresh⟩

end Engine

end SpokenCommand
