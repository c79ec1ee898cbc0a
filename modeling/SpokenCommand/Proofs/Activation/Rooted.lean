import SpokenCommand.Proofs.Activation.Enabled
import SpokenCommand.Proofs.Modes.Written
/-!
That the root is live, or comes back.

A move never switches the root off, and an overlay that does keeps it in mind for the time when it is lifted.
Two things could spoil this: an overlay on the root itself, whose end takes the root away last, and a load of
other definitions.

1. **The invariant** (`Rooted`): without an overlay all of the root is live, and an overlay suppresses the root
   and is not one on it.  Every operation keeps it that loads no other definition and names a mode other than
   the root (`Step.rooted`), and so does every run of such operations (`Rooted.run`).

2. **Precedence.**  The root comes first in the order of loading.  Its first command is therefore the first of
   all that are live, if it is live at all, and is recognized wherever it accepts
   (`Loaded.exists_recognize_first`).
-/

namespace SpokenCommand

open Modes

/-- A mode that is found by a name is the root only if the name is empty. -/
theorem Modes.Tree.ne_root_of_find? {t : Grammar.Templates} {d : ModeDefinition} {tree : Tree}
    {w : Workspace} (h : Tree.compile t d = (.ok tree, w)) {name : String} {m : ModeId}
    (hname : Text.lowercase name ≠ "") (hfind : tree.find? name = some m) : m ≠ Tree.root := by
  rintro rfl
  have hfound := List.find?_some hfind
  have hroot := Tree.holds_of_compile h
  obtain ⟨defines, commands, modes⟩ := d
  obtain ⟨mode, hmode, hempty, -⟩ := hroot
  rw [hmode, Option.map_some, hempty, beq_iff_eq] at hfound
  exact hname (Option.some.inj hfound).symm

/-- An operation that leaves the definition in effect, and names no mode or one that is not the root. -/
def Operation.SparesRoot (d : ModeDefinition) : Operation → Prop
  | .load definition => definition = d
  | .changeMode _ => True
  | .exitMode => True
  | .enterExclusive target => target ≠ Tree.root
  | .exitExclusive target => target ≠ Tree.root

theorem Operation.SparesRoot.installs_eq {d : ModeDefinition} {op : Operation} (h : op.SparesRoot d)
    (succeeded : Bool) : op.installs d succeeded = d := by
  cases op with
  | load definition =>
    cases succeeded with
    | true => exact h
    | false => rfl
  | changeMode name => rfl
  | exitMode => rfl
  | enterExclusive target => rfl
  | exitExclusive target => rfl

namespace Engine

variable {e e' : Engine} {d : ModeDefinition} {op : Operation} {b : Bool} {g : Nat}

/-! ## The invariant -/

/-- All grammars of the root are enabled. -/
def RootIsLive (e : Engine) : Prop := ∀ g ∈ e.tree.grammars Tree.root, g ∈ e.enabled

/-- The root is live, or comes back when the overlay is lifted. -/
structure Rooted (e : Engine) (d : ModeDefinition) : Prop extends e.Consistent d where
  live : e.overlay = none → e.RootIsLive
  returns : ∀ o, e.overlay = some o → o.target ≠ Tree.root ∧ Tree.root ∈ o.suppressed

/-- A definition that is loaded is rooted. -/
theorem Shows.rooted_of_load {tree : Tree}
    (h : e.Shows d tree [] none fun g => g ∈ tree.grammars Tree.root) : e.Rooted d where
  toLoaded := h.toLoaded
  path := by
    rw [h.stack_eq]
    trivial
  live := by
    intro _ g hg
    rw [h.mem_enabled, ← h.tree_eq]
    exact hg
  returns := by
    intro o ho
    rw [h.overlay_eq] at ho
    cases ho

/-- **The step**: an operation that spares the root keeps the invariant. -/
theorem Step.rooted (hstep : Step e d op b e') (h : e.Rooted d) (hspares : op.SparesRoot d) :
    e'.Rooted d := by
  have hconsistent : e'.Consistent d := by
    have hafter := hstep.consistent h.toConsistent
    rwa [hspares.installs_eq] at hafter
  cases hstep with
  | refused hrefused => exact h
  | loaded hshows =>
    obtain rfl := hspares
    exact hshows.rooted_of_load
  | moved hmove hshows =>
    refine ⟨hconsistent, ?_, ?_⟩
    · intro hfree g hg
      rw [hshows.overlay_eq] at hfree
      rw [hshows.tree_eq] at hg
      -- the mode that goes is not the root
      have hkept := (h.toConsistent.mem_root_iff.mpr hg).2
      exact (hshows.mem_enabled g).mpr (Or.inl ⟨h.live hfree g hg, hkept⟩)
    · rw [hshows.overlay_eq]
      exact h.returns
  | entered hfree hshows =>
    refine ⟨hconsistent, ?_, ?_⟩
    · intro hnone
      rw [hshows.overlay_eq] at hnone
      cases hnone
    · intro o ho
      rw [hshows.overlay_eq] at ho
      obtain rfl := Option.some.inj ho
      exact ⟨hspares, mem_suppressible.mpr (Or.inl rfl)⟩
  | lifted hoverlay hshows =>
    refine ⟨hconsistent, ?_, ?_⟩
    · intro _ g hg
      rw [hshows.tree_eq] at hg
      have hother : g ∉ e.tree.grammars _ := fun htarget => hspares (h.eq_of_mem htarget hg)
      exact (hshows.mem_enabled g).mpr ⟨Or.inr ⟨_, (h.returns _ hoverlay).2, hg⟩, hother⟩
    · intro o ho
      rw [hshows.overlay_eq] at ho
      cases ho

/-- **The run**: so do operations in order. -/
theorem Rooted.run (h : e.Rooted d) {ops : List Operation} (hspare : ∀ op ∈ ops, op.SparesRoot d) :
    (e.run ops).Rooted d := by
  induction ops generalizing e with
  | nil => exact h
  | cons op rest ih =>
    obtain ⟨hop, hrest⟩ := List.forall_mem_cons.mp hspare
    exact ih ((h.step op).rooted h hop) hrest

/-! ## Precedence -/

/-- The first grammar of the root is the first of all that are live, if it is live. -/
theorem Loaded.enabled_eq_cons (h : e.Loaded d) {rest : List Nat}
    (hgrammars : e.tree.grammars Tree.root = g :: rest) (hlive : g ∈ e.enabled) :
    ∃ others, e.enabled = g :: others := by
  obtain ⟨w, hcompiled⟩ := h.compiled
  obtain ⟨modes, hmodes⟩ : ∃ modes, e.tree.preorder = Tree.root :: modes := by
    obtain ⟨n, hn⟩ := Nat.exists_eq_add_one.mpr (Tree.length_modes_pos hcompiled)
    rw [Tree.preorder_eq_range hcompiled, hn, List.range_succ_eq_map]
    exact ⟨_, rfl⟩
  have hfilter : e.enabled = e.recognizer.ids.filter fun x => decide (x ∈ e.enabled) :=
    Recognizer.enabled_eq_filter h.nodup_ids
  rw [hfilter, h.ids_eq, hmodes, List.flatMap_cons, hgrammars, List.cons_append]
  exact ⟨_, List.filter_cons_of_pos (decide_eq_true hlive)⟩

/-- **Precedence**: as long as the root is live, its first command is recognized wherever it accepts. -/
theorem Loaded.exists_recognize_first (h : e.Loaded d) (hlive : e.RootIsLive) {cd : CommandDefinition}
    {rest : List CommandDefinition} (hcommands : d.commands = cd :: rest) :
    ∃ t c, CommandOf t Tree.root cd c ∧ ∀ phrase, Text.words phrase ≠ [] →
      Grammar.accepts c.grammar (Text.words phrase) = true → e.recognize phrase = some c := by
  obtain ⟨w, hcompiled⟩ := h.compiled
  have hroot : d.preorder[Tree.root]? = some d := by
    rw [d.preorder_eq]
    rfl
  obtain ⟨t, hall⟩ := Tree.commandsOf_grammars hcompiled hroot
  rw [hcommands] at hall
  generalize hgrammars : e.tree.grammars Tree.root = grammars at hall
  cases hall with
  | @cons _ g _ gs hfirst _ =>
    obtain ⟨c, hc, hof⟩ := hfirst
    have hg : g ∈ e.enabled := hlive g (hgrammars ▸ List.mem_cons_self)
    obtain ⟨others, henabled⟩ := h.enabled_eq_cons hgrammars hg
    refine ⟨t, c, hof, ?_⟩
    intro phrase hwords haccepts
    rw [h.recognize_eq, if_neg hwords, henabled, List.filterMap_cons_some hc]
    exact List.find?_cons_of_pos haccepts

end Engine

end SpokenCommand
