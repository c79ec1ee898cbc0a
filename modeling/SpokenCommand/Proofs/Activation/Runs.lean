import SpokenCommand.Activation
import SpokenCommand.Proofs.Activation.Flags
import SpokenCommand.Proofs.Modes.Numbering
/-!
Runs of the activation engine.

A run is a list of OPERATIONS, carried out one after another.  What an operation does is said once, by
`Step`: it is refused and changes nothing, or it leads to an engine that SHOWS a certain tree, stack,
overlay and set of enabled grammars.  The set is given by set operations on what was enabled before;
how the flags are toggled, one grammar after another, is not seen any more.

1. **Shows**: switching a mode on or off adds its grammars to the set or takes them away, and touches
   nothing else.  This needs a compiled tree, and a recognizer that holds exactly its grammars
   (`Loaded`).

2. **The stack** leads down from the root (`IsPath`), so that a move never enters the root, and never
   leads to the mode that it leaves.

3. **Steps**: every operation on an engine for which these hold (`Consistent`) is a step, and leads to
   such an engine.

4. **Runs**: what every step keeps holds throughout a run (`throughout_of_step`), and what exactly the
   steps of a kind keep holds throughout exactly the runs of such steps (`throughout_iff`).
-/

namespace SpokenCommand

open Modes

/-- What can be asked of the engine. -/
inductive Operation where
  | load (definition : ModeDefinition)
  | changeMode (name : String)
  | exitMode
  | enterExclusive (target : ModeId)
  | exitExclusive (target : ModeId)

/-- The definition in effect after an operation, if it was `d` before. -/
def Operation.installs (d : ModeDefinition) : Operation → (succeeded : Bool) → ModeDefinition
  | .load definition, true => definition
  | _, _ => d

namespace Engine

/-- Carry out an operation.  The answer is whether it succeeded. -/
def perform (e : Engine) : Operation → Reaction Engine Bool
  | .load definition => (e.load definition).mapResult Except.isOk
  | .changeMode name => (e.changeMode name).mapResult Except.isOk
  | .exitMode => e.exitMode.mapResult Except.isOk
  | .enterExclusive target => (e.enterExclusive target).mapResult Except.isOk
  | .exitExclusive target => (e.exitExclusive target).mapResult Except.isOk

/-- Carry out operations in order. -/
def run (e : Engine) (ops : List Operation) : Engine :=
  ops.foldl (fun e op => (e.perform op).state) e

theorem run_append (e : Engine) (ops ops' : List Operation) :
    e.run (ops ++ ops') = (e.run ops).run ops' := List.foldl_append

/-- Definitions for sample runs: four modes, each with one command. -/
def sample : ModeDefinition :=
  ⟨[], [⟨none, "wake", some "", none⟩],
    [("program", ⟨[], [⟨none, "dot", some "", none⟩],
      [("rust", ⟨[], [⟨none, "borrow", some "", none⟩], []⟩)]⟩),
    ("spell", ⟨[], [⟨none, "alpha", some "", none⟩], []⟩)]⟩

/-! ## What is loaded -/

/-- The tree is compiled from a definition, and the recognizer holds its grammars. -/
structure Loaded (e : Engine) (d : ModeDefinition) : Prop where
  compiled : ∃ w, Tree.compile .builtin d = (.ok e.tree, w)
  loaded_eq : e.recognizer.loaded = (loadAll e.tree).loaded

/-- What a recognizer that holds a tree holds: every grammar under its number, disabled. -/
theorem grammars_loadAll (tree : Tree) :
    (loadAll tree).grammars = (tree.preorder.flatMap tree.grammars).filterMap fun id =>
      (tree.command? id).map fun c => ⟨id, c.grammar, false⟩ := by
  have hfold : loadAll tree = (tree.preorder.flatMap tree.grammars).foldl
      (fun r id => (tree.command? id).elim r fun c => r.load id c.grammar) .empty := by
    rw [loadAll]
    congr 1
    funext r id
    cases tree.command? id with
    | none => rfl
    | some c => rfl
  suffices h : ∀ (ids : List Nat) (r : Recognizer),
      (ids.foldl (fun r id => (tree.command? id).elim r fun c => r.load id c.grammar) r).grammars =
        r.grammars ++ ids.filterMap fun id =>
          (tree.command? id).map fun c => ⟨id, c.grammar, false⟩ by
    rw [hfold]
    exact h _ .empty
  intro ids
  induction ids with
  | nil => simp
  | cons id rest ih =>
    intro r
    rw [List.foldl_cons, ih]
    cases hc : tree.command? id with
    | none => simp [hc]
    | some c => simp [hc, Recognizer.load]

theorem loaded_loadAll (tree : Tree) :
    (loadAll tree).loaded = (tree.preorder.flatMap tree.grammars).filterMap fun id =>
      (tree.command? id).map fun c => (id, c.grammar) := by
  rw [Recognizer.loaded, grammars_loadAll, List.map_filterMap]
  simp only [Option.map_map]
  rfl

theorem enabled_loadAll (tree : Tree) : (loadAll tree).enabled = [] := by
  rw [Recognizer.enabled, grammars_loadAll, List.map_eq_nil_iff, List.filter_eq_nil_iff]
  intro g hg
  obtain ⟨id, -, hid⟩ := List.mem_filterMap.mp hg
  obtain ⟨c, -, rfl⟩ := Option.map_eq_some_iff.mp hid
  exact Bool.false_ne_true

variable {e e' : Engine} {d : ModeDefinition} {m g : Nat} {b : Bool} {tree : Tree}

namespace Loaded

theorem ids_eq (h : e.Loaded d) :
    e.recognizer.ids = e.tree.preorder.flatMap e.tree.grammars := by
  obtain ⟨w, hcompiled⟩ := h.compiled
  rw [Recognizer.ids_eq_map_loaded, h.loaded_eq, loaded_loadAll, List.map_filterMap]
  refine (List.filterMap_congr ?_).trans List.filterMap_some
  intro id hid
  obtain ⟨m, -, hg⟩ := List.mem_flatMap.mp hid
  obtain ⟨c, hc, -⟩ := Tree.exists_command_of_mem_grammars hcompiled hg
  simp [hc]

theorem nodup_ids (h : e.Loaded d) : e.recognizer.ids.Nodup := by
  obtain ⟨w, hcompiled⟩ := h.compiled
  rw [h.ids_eq]
  exact Tree.nodup_flatMap_grammars hcompiled

/-- No grammar belongs to two modes. -/
theorem eq_of_mem (h : e.Loaded d) {m' : Nat} (hg : g ∈ e.tree.grammars m)
    (hg' : g ∈ e.tree.grammars m') : m = m' := by
  obtain ⟨w, hcompiled⟩ := h.compiled
  exact Tree.eq_of_mem_grammars hcompiled hg hg'

/-- A mode's grammars are among another's if and only if it is the same mode or has none. -/
theorem subset_iff (h : e.Loaded d) {m' : Nat} :
    (∀ g ∈ e.tree.grammars m, g ∈ e.tree.grammars m') ↔ m = m' ∨ e.tree.grammars m = [] := by
  constructor
  · intro hsubset
    cases hgrammars : e.tree.grammars m with
    | nil => exact Or.inr rfl
    | cons g rest =>
      have hg : g ∈ e.tree.grammars m := hgrammars ▸ List.mem_cons_self
      exact Or.inl (h.eq_of_mem hg (hsubset g hg))
  · rintro (rfl | hempty) g hg
    · exact hg
    · rw [hempty] at hg
      exact absurd hg List.not_mem_nil

/-- A mode shares no grammar with another if and only if it is not the same mode or has none. -/
theorem disjoint_iff (h : e.Loaded d) {m' : Nat} :
    (∀ g ∈ e.tree.grammars m, g ∉ e.tree.grammars m') ↔ m ≠ m' ∨ e.tree.grammars m = [] := by
  constructor
  · intro hdisjoint
    by_cases heq : m = m'
    · subst heq
      right
      rw [List.eq_nil_iff_forall_not_mem]
      intro g hg
      exact hdisjoint g hg hg
    · exact Or.inl heq
  · rintro (hne | hempty) g hg hg'
    · exact hne (h.eq_of_mem hg hg')
    · rw [hempty] at hg
      exact absurd hg List.not_mem_nil

theorem mem_ids (h : e.Loaded d) (hg : g ∈ e.tree.grammars m) : g ∈ e.recognizer.ids := by
  obtain ⟨w, hcompiled⟩ := h.compiled
  rw [h.ids_eq]
  exact Tree.mem_flatMap_of_mem_grammars hcompiled hg

/-- A loaded grammar is that of the command of its number. -/
theorem exists_command (h : e.Loaded d) {l : LoadedGrammar} (hl : l ∈ e.recognizer.grammars) :
    ∃ c, e.tree.command? l.id = some c ∧ c.grammar = l.grammar := by
  have hmem : (l.id, l.grammar) ∈ e.recognizer.loaded :=
    List.mem_map_of_mem (f := fun g : LoadedGrammar => (g.id, g.grammar)) hl
  rw [h.loaded_eq, loaded_loadAll] at hmem
  obtain ⟨id, -, hid⟩ := List.mem_filterMap.mp hmem
  obtain ⟨c, hc, heq⟩ := Option.map_eq_some_iff.mp hid
  obtain ⟨rfl, hgrammar⟩ := Prod.mk.inj heq
  exact ⟨c, hc, hgrammar⟩

end Loaded

/-! ## What an engine shows -/

/-- Switching modes changes nothing but the recognizer. -/
theorem setModesEnabled_eq (e : Engine) (ms : List ModeId) (b : Bool) :
    ∃ recognizer, e.setModesEnabled ms b = { e with recognizer } := by
  induction ms generalizing e with
  | nil => exact ⟨e.recognizer, rfl⟩
  | cons m rest ih => exact ih (e.setModeEnabled m b)

/-- The engine shows the tree of a definition, a stack and an overlay, and the enabled grammars are
    those of a set. -/
structure Shows (e : Engine) (d : ModeDefinition) (tree : Tree) (stack : List ModeId)
    (overlay : Option Overlay) (live : Nat → Prop) : Prop extends e.Loaded d where
  tree_eq : e.tree = tree
  stack_eq : e.stack = stack
  overlay_eq : e.overlay = overlay
  mem_enabled : ∀ g, g ∈ e.enabled ↔ live g

theorem Loaded.shows (h : e.Loaded d) : e.Shows d e.tree e.stack e.overlay (· ∈ e.enabled) :=
  ⟨h, rfl, rfl, rfl, fun _ => Iff.rfl⟩

namespace Shows

variable {stack stack' : List ModeId} {overlay overlay' : Option Overlay} {live live' : Nat → Prop}

theorem congr (h : e.Shows d tree stack overlay live) (hlive : ∀ g, live g ↔ live' g) :
    e.Shows d tree stack overlay live' :=
  ⟨h.toLoaded, h.tree_eq, h.stack_eq, h.overlay_eq, fun g => (h.mem_enabled g).trans (hlive g)⟩

theorem withStack {pushed : List ModeId} (h : e.Shows d tree stack overlay live)
    (hstack : pushed = stack') : Shows { e with stack := pushed } d tree stack' overlay live :=
  ⟨⟨h.compiled, h.loaded_eq⟩, h.tree_eq, hstack, h.overlay_eq, h.mem_enabled⟩

theorem withOverlay (h : e.Shows d tree stack overlay live) :
    Shows { e with overlay := overlay' } d tree stack overlay' live :=
  ⟨⟨h.compiled, h.loaded_eq⟩, h.tree_eq, h.stack_eq, rfl, h.mem_enabled⟩

/-- Switching a mode sets the flags of its grammars and no others. -/
theorem switch (h : e.Shows d tree stack overlay live) (m : ModeId) (b : Bool) :
    (e.setModeEnabled m b).Shows d tree stack overlay fun g =>
      if g ∈ tree.grammars m then b = true else live g := by
  have hloaded : (e.setModeEnabled m b).Loaded d :=
    ⟨h.compiled, Recognizer.loaded_setAllEnabled.trans h.loaded_eq⟩
  refine ⟨hloaded, h.tree_eq, h.stack_eq, h.overlay_eq, ?_⟩
  intro g
  show g ∈ (e.recognizer.setAllEnabled (e.tree.grammars m) b).enabled ↔ _
  rw [Recognizer.mem_enabled_setAllEnabled h.toLoaded.nodup_ids, ← h.tree_eq]
  by_cases hg : g ∈ e.tree.grammars m
  · rw [if_pos hg, if_pos hg]
    exact and_iff_left (h.toLoaded.mem_ids hg)
  · rw [if_neg hg, if_neg hg]
    exact h.mem_enabled g

/-- Switching a mode on adds its grammars. -/
theorem on (h : e.Shows d tree stack overlay live) (m : ModeId) :
    (e.setModeEnabled m true).Shows d tree stack overlay fun g => live g ∨ g ∈ tree.grammars m := by
  refine (h.switch m true).congr ?_
  intro g
  by_cases hg : g ∈ tree.grammars m
  · simp [hg]
  · simp [hg]

/-- Switching a mode off takes its grammars away. -/
theorem off (h : e.Shows d tree stack overlay live) (m : ModeId) :
    (e.setModeEnabled m false).Shows d tree stack overlay fun g =>
      live g ∧ g ∉ tree.grammars m := by
  refine (h.switch m false).congr ?_
  intro g
  by_cases hg : g ∈ tree.grammars m
  · simp [hg]
  · simp [hg]

theorem allOn (h : e.Shows d tree stack overlay live) (ms : List ModeId) :
    (e.setModesEnabled ms true).Shows d tree stack overlay fun g =>
      live g ∨ ∃ m ∈ ms, g ∈ tree.grammars m := by
  induction ms generalizing e live with
  | nil => exact h.congr (by simp)
  | cons m rest ih =>
    refine (ih (h.on m)).congr ?_
    intro g
    rw [List.exists_mem_cons_iff, or_assoc]

theorem allOff (h : e.Shows d tree stack overlay live) (ms : List ModeId) :
    (e.setModesEnabled ms false).Shows d tree stack overlay fun g =>
      live g ∧ ∀ m ∈ ms, g ∉ tree.grammars m := by
  induction ms generalizing e live with
  | nil => exact h.congr (by simp)
  | cons m rest ih =>
    refine (ih (h.off m)).congr ?_
    intro g
    rw [List.forall_mem_cons, and_assoc]

end Shows

/-! ## The stack -/

/-- The innermost mode of a stack, or the root. -/
def innermost (stack : List ModeId) : ModeId := stack.head?.getD Tree.root

/-- The stack leads down from the root, each mode being a child of the one below it. -/
def IsPath (tree : Tree) : List ModeId → Prop
  | [] => True
  | m :: below => m ∈ tree.children (innermost below) ∧ IsPath tree below

theorem Shows.current_eq {stack : List ModeId} {overlay : Option Overlay} {live : Nat → Prop}
    (h : e.Shows d tree stack overlay live) : e.current = innermost stack := by
  rw [current, h.stack_eq, innermost]

theorem current_of_cons {below : List ModeId} (hstack : e.stack = m :: below) : e.current = m := by
  rw [current, hstack]
  rfl

/-- What every run keeps. -/
structure Consistent (e : Engine) (d : ModeDefinition) : Prop extends e.Loaded d where
  path : IsPath e.tree e.stack

/-- The mode that is entered last comes after the one below it. -/
theorem Consistent.innermost_lt (h : e.Consistent d) {below : List ModeId}
    (hstack : e.stack = m :: below) : innermost below < m := by
  obtain ⟨w, hcompiled⟩ := h.compiled
  have hpath := h.path
  rw [hstack] at hpath
  exact (Tree.lt_of_mem_children hcompiled hpath.1).1

/-- The root is never entered. -/
theorem Consistent.current_eq_root (h : e.Consistent d) : e.current = Tree.root ↔ e.stack = [] := by
  constructor
  · intro hroot
    cases hstack : e.stack with
    | nil => rfl
    | cons m below =>
      have hlt := h.innermost_lt hstack
      rw [current_of_cons hstack] at hroot
      rw [hroot] at hlt
      exact absurd hlt (Nat.not_lt_zero _)
  · intro hstack
    rw [current, hstack]
    rfl

/-- An overlay suppresses the root and the current mode. -/
theorem mem_suppressible : m ∈ e.suppressible ↔ m = Tree.root ∨ m = e.current := by
  rw [suppressible]
  by_cases hroot : e.current = Tree.root
  · simp [hroot]
  · simp [hroot]

/-- Covering the current mode leaves the root. -/
theorem Consistent.mem_root_iff (h : e.Consistent d) :
    ((g ∈ e.tree.grammars Tree.root ∨ g ∈ e.tree.grammars e.current) ∧
      ∀ m ∈ e.stack.head?, g ∉ e.tree.grammars m) ↔ g ∈ e.tree.grammars Tree.root := by
  cases hstack : e.stack with
  | nil =>
    rw [h.current_eq_root.mpr hstack]
    simp
  | cons m below =>
    have hcurrent : e.current = m := current_of_cons hstack
    constructor
    · rintro ⟨hroot | hm, hnot⟩
      · exact hroot
      · exact absurd (hcurrent ▸ hm) (hnot m rfl)
    · intro hroot
      refine ⟨Or.inl hroot, ?_⟩
      intro m' hm' hg
      obtain rfl : m = m' := Option.some.inj hm'
      -- a grammar of both would make the root the entered mode
      have hsame : Tree.root = m := h.eq_of_mem hroot hg
      rw [← hcurrent, eq_comm, h.current_eq_root, hstack] at hsame
      exact List.cons_ne_nil m below hsame

/-- The stack that an operation leads to when it moves about the tree. -/
def moveTo? (e : Engine) : Operation → Option (List ModeId)
  | .changeMode name => (e.tree.child? e.current name).map fun target => target :: e.stack
  | .exitMode =>
    match e.stack with
    | [] => none
    | _ :: below => some below
  | _ => none

/-- The two ways to move. -/
theorem moveTo?_eq_some {op : Operation} {stack : List ModeId} (hmove : e.moveTo? op = some stack) :
    (∃ name target, op = .changeMode name ∧ e.tree.child? e.current name = some target ∧
      stack = target :: e.stack) ∨
    (op = .exitMode ∧ ∃ left, e.stack = left :: stack) := by
  cases op with
  | changeMode name =>
    obtain ⟨target, hchild, rfl⟩ := Option.map_eq_some_iff.mp hmove
    exact Or.inl ⟨name, target, rfl, hchild, rfl⟩
  | exitMode =>
    rw [moveTo?] at hmove
    cases hstack : e.stack with
    | nil =>
      rw [hstack] at hmove
      cases hmove
    | cons left below =>
      rw [hstack] at hmove
      obtain rfl : below = stack := Option.some.inj hmove
      exact Or.inr ⟨rfl, left, rfl⟩
  | load definition => cases hmove
  | enterExclusive target => cases hmove
  | exitExclusive target => cases hmove

/-- A move follows the tree. -/
theorem Consistent.isPath_of_moveTo? (h : e.Consistent d) {op : Operation} {stack : List ModeId}
    (hmove : e.moveTo? op = some stack) : IsPath e.tree stack := by
  rcases moveTo?_eq_some hmove with ⟨name, target, -, hchild, rfl⟩ | ⟨-, left, hstack⟩
  · exact ⟨Tree.mem_children_of_child? hchild, h.path⟩
  · have hpath := h.path
    rw [hstack] at hpath
    exact hpath.2

/-- A move never leads to the mode that was innermost before. -/
theorem Consistent.ne_of_moveTo? (h : e.Consistent d) {op : Operation} {stack : List ModeId}
    (hmove : e.moveTo? op = some stack) (hm : m ∈ e.stack.head?) : m ≠ innermost stack := by
  rcases moveTo?_eq_some hmove with ⟨name, target, -, hchild, rfl⟩ | ⟨-, left, hstack⟩
  · obtain ⟨w, hcompiled⟩ := h.compiled
    have hlt := (Tree.lt_of_mem_children hcompiled (Tree.mem_children_of_child? hchild)).1
    have hcurrent : e.current = m := by
      rw [current, hm]
      rfl
    rw [hcurrent] at hlt
    exact Nat.ne_of_lt hlt
  · have hlt := h.innermost_lt hstack
    rw [hstack] at hm
    obtain rfl : left = m := Option.some.inj hm
    exact Nat.ne_of_gt hlt

/-! ## Steps -/

/-- Why an operation is not carried out. -/
def Refused (e : Engine) : Operation → Prop
  | .load definition => ∃ err w, Tree.compile .builtin definition = (.error err, w)
  | .changeMode name => e.tree.child? e.current name = none
  | .exitMode => e.stack = []
  | .enterExclusive _ => e.overlay ≠ none
  | .exitExclusive _ => e.overlay = none

theorem moveTo?_of_refused {op : Operation} (h : e.Refused op) : e.moveTo? op = none := by
  cases op with
  | changeMode name =>
    have hchild : e.tree.child? e.current name = none := h
    rw [moveTo?, hchild, Option.map_none]
  | exitMode =>
    have hstack : e.stack = [] := h
    rw [moveTo?, hstack]
  | load definition => rfl
  | enterExclusive target => rfl
  | exitExclusive target => rfl

/-- An operation that fails leaves the engine as it is, and makes no events known unless it is a load. -/
theorem perform_of_failed {op : Operation} (hfailed : (e.perform op).result = false) :
    (e.perform op).state = e ∧
      ((∀ definition, op ≠ .load definition) → (e.perform op).events = []) := by
  cases op with
  | load definition =>
    rw [perform, load] at hfailed ⊢
    split at hfailed
    · exact absurd hfailed Bool.noConfusion
    · exact ⟨rfl, fun hop => absurd rfl (hop definition)⟩
  | changeMode name =>
    rw [perform, changeMode] at hfailed ⊢
    split at hfailed
    · exact ⟨rfl, fun _ => rfl⟩
    · exact absurd hfailed Bool.noConfusion
  | exitMode =>
    rw [perform, exitMode] at hfailed ⊢
    split at hfailed
    · exact ⟨rfl, fun _ => rfl⟩
    · exact absurd hfailed Bool.noConfusion
  | enterExclusive target =>
    rw [perform, enterExclusive] at hfailed ⊢
    split at hfailed
    · exact ⟨rfl, fun _ => rfl⟩
    · exact absurd hfailed Bool.noConfusion
  | exitExclusive target =>
    rw [perform, exitExclusive] at hfailed ⊢
    split at hfailed
    · exact ⟨rfl, fun _ => rfl⟩
    · exact absurd hfailed Bool.noConfusion

/-- What an operation does to an engine that shows `d`: its answer and the engine afterwards. -/
inductive Step (e : Engine) (d : ModeDefinition) : Operation → Bool → Engine → Prop
  | /-- Nothing changes. -/
    refused {op} (hrefused : e.Refused op) : Step e d op false e
  | /-- Only the root of the new tree is live. -/
    loaded {definition tree e'}
      (hshows : e'.Shows definition tree [] none fun g => g ∈ tree.grammars Tree.root) :
      Step e d (.load definition) true e'
  | /-- The innermost mode goes, unless it is the root, and the one that is innermost then comes. -/
    moved {op stack e'} (hmove : e.moveTo? op = some stack)
      (hshows : e'.Shows d e.tree stack e.overlay fun g =>
        (g ∈ e.enabled ∧ ∀ m ∈ e.stack.head?, g ∉ e.tree.grammars m) ∨
          g ∈ e.tree.grammars (innermost stack)) :
      Step e d op true e'
  | /-- What is suppressed goes, and the target comes. -/
    entered {target e'} (hfree : e.overlay = none)
      (hshows : e'.Shows d e.tree e.stack (some ⟨target, e.suppressible⟩) fun g =>
        (g ∈ e.enabled ∧ ∀ m ∈ e.suppressible, g ∉ e.tree.grammars m) ∨
          g ∈ e.tree.grammars target) :
      Step e d (.enterExclusive target) true e'
  | /-- What was suppressed comes, and the target goes. -/
    lifted {target o e'} (hoverlay : e.overlay = some o)
      (hshows : e'.Shows d e.tree e.stack none fun g =>
        (g ∈ e.enabled ∨ ∃ m ∈ o.suppressed, g ∈ e.tree.grammars m) ∧
          g ∉ e.tree.grammars target) :
      Step e d (.exitExclusive target) true e'

theorem shows_install {w : Workspace} (hcompile : Tree.compile .builtin d = (.ok tree, w)) :
    (e.install tree).Shows d tree [] none fun g => g ∈ tree.grammars Tree.root := by
  have hloaded : Loaded { e with tree, recognizer := loadAll tree, stack := [], overlay := none } d :=
    ⟨⟨w, hcompile⟩, rfl⟩
  refine (hloaded.shows.on Tree.root).congr ?_
  intro g
  show g ∈ (loadAll tree).enabled ∨ _ ↔ _
  rw [enabled_loadAll]
  simp

/-- Entering a child covers the current mode, unless that is the root. -/
theorem Consistent.shows_covered (h : e.Consistent d) :
    (if e.current = Tree.root then e else e.setModeEnabled e.current false).Shows d e.tree e.stack
      e.overlay fun g => g ∈ e.enabled ∧ ∀ m ∈ e.stack.head?, g ∉ e.tree.grammars m := by
  cases hstack : e.stack with
  | nil =>
    rw [if_pos (h.current_eq_root.mpr hstack), ← hstack]
    exact h.toLoaded.shows.congr (by simp [hstack])
  | cons m below =>
    have hnested : e.current ≠ Tree.root := by
      rw [Ne, h.current_eq_root, hstack]
      exact List.cons_ne_nil m below
    have hcurrent : e.current = m := current_of_cons hstack
    rw [if_neg hnested, ← hstack, hcurrent]
    exact (h.toLoaded.shows.off m).congr (by simp [hstack])

/-- **Every operation** is a step. -/
theorem Consistent.step (h : e.Consistent d) (op : Operation) :
    Step e d op (e.perform op).result (e.perform op).state := by
  cases op with
  | load definition =>
    rw [perform, load]
    split
    · rename_i new w hcompile
      exact .loaded (shows_install hcompile)
    · rename_i err w hcompile
      exact .refused ⟨err, w, hcompile⟩
  | changeMode name =>
    rw [perform, changeMode]
    split
    · rename_i hchild
      exact .refused hchild
    · rename_i target hchild
      have hcovered := h.shows_covered
      have hpushed := hcovered.withStack (congrArg (target :: ·) hcovered.stack_eq)
      have hmove : e.moveTo? (.changeMode name) = some (target :: e.stack) := by
        rw [moveTo?, hchild, Option.map_some]
      exact .moved hmove (hpushed.on target)
  | exitMode =>
    rw [perform, exitMode]
    split
    · rename_i hstack
      exact .refused hstack
    · rename_i left below hstack
      have hbelow : Shows { e with stack := below } d e.tree below e.overlay (· ∈ e.enabled) :=
        h.toLoaded.shows.withStack rfl
      have hdropped := hbelow.off left
      have hmove : e.moveTo? .exitMode = some below := by
        rw [moveTo?, hstack]
      refine .moved hmove ((hdropped.on (innermost below)).congr ?_)
      intro g
      simp [hstack]
  | enterExclusive target =>
    rw [perform, enterExclusive]
    split
    · rename_i o hoverlay
      exact .refused (by simp [Refused, hoverlay])
    · rename_i hfree
      exact .entered hfree ((h.toLoaded.shows.allOff e.suppressible).on target).withOverlay
  | exitExclusive target =>
    rw [perform, exitExclusive]
    split
    · rename_i hfree
      exact .refused hfree
    · rename_i o hoverlay
      exact .lifted hoverlay ((h.toLoaded.shows.withOverlay.allOn o.suppressed).off target)

/-- A move succeeds: the innermost mode goes, unless it is the root, and the one that is innermost then
    comes. -/
theorem Consistent.shows_of_moveTo? (h : e.Consistent d) {op : Operation} {stack : List ModeId}
    (hmove : e.moveTo? op = some stack) :
    (e.perform op).state.Shows d e.tree stack e.overlay fun g =>
      (g ∈ e.enabled ∧ ∀ m ∈ e.stack.head?, g ∉ e.tree.grammars m) ∨
        g ∈ e.tree.grammars (innermost stack) := by
  have hstep := h.step op
  generalize (e.perform op).state = e' at hstep ⊢
  generalize (e.perform op).result = b at hstep
  cases hstep with
  | refused hrefused =>
    rw [moveTo?_of_refused hrefused] at hmove
    cases hmove
  | moved hmove' hshows =>
    obtain rfl := Option.some.inj (hmove.symm.trans hmove')
    exact hshows
  | loaded hshows => cases hmove
  | entered hfree hshows => cases hmove
  | lifted hoverlay hshows => cases hmove

/-! ## What every run keeps -/

theorem Step.consistent {op : Operation} (h : e.Consistent d) (hstep : Step e d op b e') :
    e'.Consistent (op.installs d b) := by
  cases hstep with
  | refused hrefused => cases op <;> exact h
  | loaded hshows =>
    refine ⟨hshows.toLoaded, ?_⟩
    rw [hshows.stack_eq]
    trivial
  | moved hmove hshows =>
    have hpath := h.isPath_of_moveTo? hmove
    rw [← hshows.tree_eq, ← hshows.stack_eq] at hpath
    rcases moveTo?_eq_some hmove with ⟨name, target, rfl, -, -⟩ | ⟨rfl, -⟩
    · exact ⟨hshows.toLoaded, hpath⟩
    · exact ⟨hshows.toLoaded, hpath⟩
  | entered hfree hshows =>
    refine ⟨hshows.toLoaded, ?_⟩
    rw [hshows.tree_eq, hshows.stack_eq]
    exact h.path
  | lifted hoverlay hshows =>
    refine ⟨hshows.toLoaded, ?_⟩
    rw [hshows.tree_eq, hshows.stack_eq]
    exact h.path

theorem consistent_empty : empty.Consistent .empty := ⟨⟨⟨_, rfl⟩, rfl⟩, trivial⟩

theorem Consistent.run (h : e.Consistent d) (ops : List Operation) :
    ∃ d, (e.run ops).Consistent d := by
  induction ops generalizing e d with
  | nil => exact ⟨d, h⟩
  | cons op rest ih => exact ih (Step.consistent h (h.step op))

/-- What holds at first and is kept by every operation holds throughout a run. -/
theorem throughout_of_step {P : Engine → Prop} {ops : List Operation} (hstart : P e)
    (hstep : ∀ p op, p ++ [op] <+: ops → P (e.run p) → P ((e.run p).perform op).state) :
    ∀ p, p <+: ops → P (e.run p) := by
  intro p
  -- on the last operation of the prefix: the prefix before it is one as well
  induction p using List.reverseRecOn with
  | nil => exact fun _ => hstart
  | append_singleton p op ih =>
    intro hp
    rw [run_append]
    exact hstep p op hp (ih ((List.prefix_append p [op]).trans hp))

/-- What holds at first and is kept by exactly the operations that meet a condition holds throughout a
    run if and only if all operations of the run meet the condition. -/
theorem throughout_iff {P : Engine → Prop} {Q : Engine → Operation → Prop} {ops : List Operation}
    (hstart : P e)
    (hstep : ∀ p op, p ++ [op] <+: ops → P (e.run p) →
      (P ((e.run p).perform op).state ↔ Q (e.run p) op)) :
    (∀ p, p <+: ops → P (e.run p)) ↔ ∀ p op, p ++ [op] <+: ops → Q (e.run p) op := by
  constructor
  · intro hall p op hp
    have hbefore := hall p ((List.prefix_append p [op]).trans hp)
    have hafter := hall (p ++ [op]) hp
    rw [run_append] at hafter
    exact (hstep p op hp hbefore).mp hafter
  · intro hall
    apply throughout_of_step hstart
    intro p op hp hbefore
    exact (hstep p op hp hbefore).mpr (hall p op hp)

end Engine

end SpokenCommand
