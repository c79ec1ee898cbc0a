import SpokenCommand.Proofs.Activation.Enabled
import SpokenCommand.Proofs.Modes.Shape
import SpokenCommand.Proofs.Session.Driving
/-!
Switching between siblings, all or nothing.

To switch to a SIBLING of the current mode is to leave that mode, and then to enter another child of the
mode below it.  It ought to be done as a whole or not at all (`SwitchesWhole`).  But it is two operations,
and the second is carried out whatever the first answers, and nothing is undone if the second fails:

1. **Without a sibling** of the name, the current mode is left all the same.  At the root, where nothing
   can be left and nothing has a sibling, a CHILD of the name is entered.

2. **With a sibling**, the stack ends up as it ought to.  The flags do too if nothing stale was live
   before; and if the mode below is not the root, which is what leaving a mode switches on, the root must
   have been live already.

So a switch is whole if and only if `CanSwitch` holds before it (`Consistent.switchesWhole_iff`).  This is
an equivalence of the engine, and a session asks the engine for just these two operations.
-/

namespace SpokenCommand

open Modes Playback Script

namespace Engine

variable {e : Engine} {d : ModeDefinition} {name : String} {left : ModeId} {below : List ModeId}

/-- The sibling of the current mode that has a name, whatever its letter case: a child of its parent. -/
def sibling? (e : Engine) (name : String) : Option ModeId :=
  ((e.tree.mode? e.current).bind Mode.parent).bind fun parent => e.tree.child? parent name

/-- What switching to the sibling of a name ought to do, from one engine to another. -/
inductive SwitchesWhole (e : Engine) (name : String) (e' : Engine) : Prop
  | /-- The current mode gives way to the sibling, and the root and the sibling are live. -/
    switched {sibling} (hsibling : e.sibling? name = some sibling)
      (hstack : e'.stack = sibling :: e.stack.tail)
      (hlive : ∀ g, g ∈ e'.enabled ↔ g ∈ e.tree.grammars Tree.root ∨ g ∈ e.tree.grammars sibling)
  | /-- There is no such sibling, and the stack and what is live stay. -/
    unchanged (hsibling : e.sibling? name = none) (hstack : e'.stack = e.stack)
      (hlive : ∀ g, g ∈ e'.enabled ↔ g ∈ e.enabled)

/-- What it takes for a switch to be whole. -/
inductive CanSwitch (e : Engine) (name : String) : Prop
  | /-- There is a sibling, nothing stale is live, and the root is live unless it is the mode below. -/
    toSibling {sibling} (hsibling : e.sibling? name = some sibling)
      (hclean : ∀ g ∈ e.enabled, g ∈ e.tree.grammars Tree.root ∨ g ∈ e.tree.grammars e.current ∨
        g ∈ e.tree.grammars (innermost e.stack.tail) ∨ g ∈ e.tree.grammars sibling)
      (hroot : e.stack.tail = [] ∨ ∀ g ∈ e.tree.grammars Tree.root, g ∈ e.enabled)
  | /-- The root is the current mode, and has no child of the name. -/
    nowhere (hstack : e.stack = []) (hchild : e.tree.child? Tree.root name = none)

/-- The stack after an attempt to switch. -/
def stackAfterSwitch (e : Engine) (name : String) : List ModeId :=
  match e.sibling? name with
  | some sibling => sibling :: e.stack.tail
  | none => if e.stack = [] then (e.tree.child? Tree.root name).toList else e.stack.tail

/-! ## Siblings -/

/-- The root has no siblings. -/
theorem Consistent.sibling?_of_nil (h : e.Consistent d) (hstack : e.stack = []) (name : String) :
    e.sibling? name = none := by
  obtain ⟨w, hcompiled⟩ := h.compiled
  have hroot : e.current = Tree.root := h.current_eq_root.mpr hstack
  rw [sibling?, hroot]
  cases hmode : e.tree.mode? Tree.root with
  | none => rfl
  | some mode =>
    have hparent : mode.parent = none := (Tree.parent_eq_none_iff hcompiled hmode).mpr rfl
    rw [Option.bind_some, hparent]
    rfl

/-- The siblings of a mode that was entered are the children of the mode below. -/
theorem Consistent.sibling?_of_cons (h : e.Consistent d) (hstack : e.stack = left :: below)
    (name : String) : e.sibling? name = e.tree.child? (innermost below) name := by
  obtain ⟨w, hcompiled⟩ := h.compiled
  have hpath := h.path
  rw [hstack] at hpath
  obtain ⟨mode, hmode, hparent⟩ := (Tree.mem_children_iff hcompiled).mp hpath.1
  rw [sibling?, current_of_cons hstack, hmode, Option.bind_some, hparent, Option.bind_some]

/-- A child that is found comes after its parent. -/
theorem Consistent.lt_of_child? (h : e.Consistent d) {p c : ModeId}
    (hchild : e.tree.child? p name = some c) : p < c := by
  obtain ⟨w, hcompiled⟩ := h.compiled
  exact (Tree.lt_of_mem_children hcompiled (Tree.mem_children_of_child? hchild)).1

/-! ## The two operations -/

theorem Consistent.exited (h : e.Consistent d) (hstack : e.stack = left :: below) :
    (e.perform .exitMode).state.Consistent d ∧
      (e.perform .exitMode).state.Shows d e.tree below e.overlay fun g =>
        (g ∈ e.enabled ∧ g ∉ e.tree.grammars left) ∨ g ∈ e.tree.grammars (innermost below) := by
  have hmove : e.moveTo? .exitMode = some below := by
    rw [moveTo?, hstack]
  have hshows := h.shows_of_moveTo? hmove
  have hpath := h.isPath_of_moveTo? hmove
  rw [← hshows.tree_eq, ← hshows.stack_eq] at hpath
  refine ⟨⟨hshows.toLoaded, hpath⟩, hshows.congr ?_⟩
  intro g
  rw [hstack, List.head?_cons]
  simp

/-- The root is not left. -/
theorem state_exitMode_of_nil (hstack : e.stack = []) : (e.perform .exitMode).state = e := by
  rw [perform, exitMode, hstack]
  rfl

/-- A child that is not there is not entered. -/
theorem state_changeMode_of_none (hchild : e.tree.child? e.current name = none) :
    (e.perform (.changeMode name)).state = e := by
  rw [perform, changeMode, hchild]
  rfl

/-- Leaving a mode and entering a sibling moves as it ought to, whatever was live. -/
theorem Consistent.shows_switch (h : e.Consistent d) (hstack : e.stack = left :: below) {c : ModeId}
    (hchild : e.tree.child? (innermost below) name = some c) :
    (e.run [.exitMode, .changeMode name]).Shows d e.tree (c :: below) e.overlay fun g =>
      (((g ∈ e.enabled ∧ g ∉ e.tree.grammars left) ∨ g ∈ e.tree.grammars (innermost below)) ∧
        ∀ m ∈ below.head?, g ∉ e.tree.grammars m) ∨ g ∈ e.tree.grammars c := by
  obtain ⟨hconsistent, hexited⟩ := h.exited hstack
  have hmove : (e.perform .exitMode).state.moveTo? (.changeMode name) = some (c :: below) := by
    rw [moveTo?, hexited.tree_eq, hexited.current_eq, hchild, hexited.stack_eq, Option.map_some]
  have hentered := hconsistent.shows_of_moveTo? hmove
  rw [hexited.tree_eq, hexited.stack_eq, hexited.overlay_eq] at hentered
  simp only [hexited.mem_enabled] at hentered
  exact hentered

/-- **The stack** after an attempt to switch. -/
theorem Consistent.stack_switch (h : e.Consistent d) (name : String) :
    (e.run [.exitMode, .changeMode name]).stack = e.stackAfterSwitch name := by
  show ((e.perform .exitMode).state.perform (.changeMode name)).state.stack = _
  rw [stackAfterSwitch]
  cases hstack : e.stack with
  | nil =>
    have hroot : e.current = Tree.root := h.current_eq_root.mpr hstack
    rw [h.sibling?_of_nil hstack, state_exitMode_of_nil hstack, perform, changeMode, hroot]
    cases e.tree.child? Tree.root name with
    | none => exact hstack
    | some c =>
      show c :: e.stack = [c]
      rw [hstack]
  | cons left below =>
    obtain ⟨hconsistent, hexited⟩ := h.exited hstack
    rw [h.sibling?_of_cons hstack]
    cases hchild : e.tree.child? (innermost below) name with
    | none =>
      have hnone := hchild
      rw [← hexited.tree_eq, ← hexited.current_eq] at hnone
      rw [state_changeMode_of_none hnone]
      exact hexited.stack_eq
    | some c => exact (h.shows_switch hstack hchild).stack_eq

/-! ## When a switch is whole -/

/-- Covering the mode below leaves the root, of the root and that mode. -/
theorem Consistent.covered_iff (h : e.Consistent d) (hstack : e.stack = left :: below) (g : GrammarId) :
    ((g ∈ e.tree.grammars Tree.root ∨ g ∈ e.tree.grammars (innermost below)) ∧
      ∀ m ∈ below.head?, g ∉ e.tree.grammars m) ↔ g ∈ e.tree.grammars Tree.root := by
  obtain ⟨hexited, hshows⟩ := h.exited hstack
  have hiff := hexited.mem_root_iff (g := g)
  rwa [hshows.tree_eq, hshows.current_eq, hshows.stack_eq] at hiff

/-- The root's grammars are not those of a mode that was entered, nor of its siblings, and they are those
    of the mode below only where that is the root. -/
theorem Consistent.apart_of_mem_root (h : e.Consistent d) (hstack : e.stack = left :: below) {c : ModeId}
    (hchild : e.tree.child? (innermost below) name = some c) {g : GrammarId}
    (hg : g ∈ e.tree.grammars Tree.root) :
    g ∉ e.tree.grammars left ∧ g ∉ e.tree.grammars c ∧
      (g ∈ e.tree.grammars (innermost below) → below = []) := by
  have hlt : innermost below < left := h.innermost_lt hstack
  have hlt' : innermost below < c := h.lt_of_child? hchild
  refine ⟨?_, ?_, ?_⟩
  · intro hleft
    exact absurd (h.eq_of_mem hg hleft) (Nat.ne_of_lt (Nat.zero_lt_of_lt hlt))
  · intro hc
    exact absurd (h.eq_of_mem hg hc) (Nat.ne_of_lt (Nat.zero_lt_of_lt hlt'))
  · intro hinnermost
    obtain ⟨hexited, hshows⟩ := h.exited hstack
    have hsame := h.eq_of_mem hinnermost hg
    rw [← hshows.current_eq, hexited.current_eq_root, hshows.stack_eq] at hsame
    exact hsame

/-- What is live after a switch to a sibling is the root and that sibling if and only if nothing stale was
    live before, and the root was live or is what leaving the mode switches on. -/
theorem Consistent.switched_live_iff (h : e.Consistent d) (hstack : e.stack = left :: below) {c : ModeId}
    (hchild : e.tree.child? (innermost below) name = some c) :
    (∀ g, (((g ∈ e.enabled ∧ g ∉ e.tree.grammars left) ∨ g ∈ e.tree.grammars (innermost below)) ∧
        ∀ m ∈ below.head?, g ∉ e.tree.grammars m) ∨ g ∈ e.tree.grammars c ↔
          g ∈ e.tree.grammars Tree.root ∨ g ∈ e.tree.grammars c) ↔
      (∀ g ∈ e.enabled, g ∈ e.tree.grammars Tree.root ∨ g ∈ e.tree.grammars left ∨
        g ∈ e.tree.grammars (innermost below) ∨ g ∈ e.tree.grammars c) ∧
        (below = [] ∨ ∀ g ∈ e.tree.grammars Tree.root, g ∈ e.enabled) := by
  have hbelow : ∀ g, g ∉ e.tree.grammars (innermost below) →
      ∀ m ∈ below.head?, g ∉ e.tree.grammars m := by
    intro g hg m hm
    rwa [innermost, hm] at hg
  constructor
  · intro hsame
    refine ⟨?_, ?_⟩
    · intro g hg
      by_cases hleft : g ∈ e.tree.grammars left
      · exact Or.inr (Or.inl hleft)
      · by_cases hinnermost : g ∈ e.tree.grammars (innermost below)
        · exact Or.inr (Or.inr (Or.inl hinnermost))
        · exact ((hsame g).mp (Or.inl ⟨Or.inl ⟨hg, hleft⟩, hbelow g hinnermost⟩)).imp_right
            fun hc => Or.inr (Or.inr hc)
    · by_cases hnil : below = []
      · exact Or.inl hnil
      · refine Or.inr ?_
        intro g hg
        obtain ⟨-, hc, hinnermost⟩ := h.apart_of_mem_root hstack hchild hg
        rcases (hsame g).mpr (Or.inl hg) with ⟨⟨hlive, -⟩ | hin, -⟩ | hin
        · exact hlive
        · exact absurd (hinnermost hin) hnil
        · exact absurd hin hc
  · rintro ⟨hclean, hlive⟩ g
    constructor
    · rintro (⟨⟨hg, hleft⟩ | hinnermost, hdead⟩ | hc)
      · rcases hclean g hg with hg' | hleft' | hinnermost | hc
        · exact Or.inl hg'
        · exact absurd hleft' hleft
        · exact Or.inl ((h.covered_iff hstack g).mp ⟨Or.inr hinnermost, hdead⟩)
        · exact Or.inr hc
      · exact Or.inl ((h.covered_iff hstack g).mp ⟨Or.inr hinnermost, hdead⟩)
      · exact Or.inr hc
    · rintro (hg | hc)
      · refine Or.inl ⟨?_, ((h.covered_iff hstack g).mpr hg).2⟩
        rcases hlive with rfl | hlive
        · exact Or.inr hg
        · exact Or.inl ⟨hlive g hg, (h.apart_of_mem_root hstack hchild hg).1⟩
      · exact Or.inr hc

/-- At the root a switch is whole only where it does nothing: where no child has the name. -/
theorem Consistent.switchesWhole_iff_of_nil (h : e.Consistent d) (hstack : e.stack = []) (name : String) :
    e.SwitchesWhole name (e.run [.exitMode, .changeMode name]) ↔ e.CanSwitch name := by
  have hsibling := h.sibling?_of_nil hstack name
  constructor
  · rintro (⟨hsome, -, -⟩ | ⟨-, hsame, -⟩)
    · rw [hsibling] at hsome
      cases hsome
    · -- no child was entered, and so there is none
      rw [h.stack_switch, stackAfterSwitch, hsibling, hstack] at hsame
      exact .nowhere hstack (Option.toList_eq_nil_iff.mp hsame)
  · rintro (⟨hsome, -, -⟩ | ⟨-, hchild⟩)
    · rw [hsibling] at hsome
      cases hsome
    · have hnone : e.tree.child? e.current name = none := by
        rwa [h.current_eq_root.mpr hstack]
      have hsame : e.run [.exitMode, .changeMode name] = e := by
        show ((e.perform .exitMode).state.perform (.changeMode name)).state = e
        rw [state_exitMode_of_nil hstack, state_changeMode_of_none hnone]
      rw [hsame]
      exact .unchanged hsibling rfl fun _ => Iff.rfl

/-- Without a sibling of the name a mode that was entered is left, and the switch is not whole. -/
theorem Consistent.not_switchesWhole_of_cons (h : e.Consistent d) (hstack : e.stack = left :: below)
    (hsibling : e.sibling? name = none) :
    ¬ e.SwitchesWhole name (e.run [.exitMode, .changeMode name]) := by
  rintro (⟨hsome, -, -⟩ | ⟨-, hsame, -⟩)
  · rw [hsibling] at hsome
    cases hsome
  · rw [h.stack_switch, stackAfterSwitch, hsibling, hstack] at hsame
    exact absurd hsame.symm (List.cons_ne_self left below)

/-- To a sibling that is there the stack moves as it ought to, and the flags decide. -/
theorem Consistent.switchesWhole_iff_of_sibling (h : e.Consistent d) (hstack : e.stack = left :: below)
    {c : ModeId} (hsibling : e.sibling? name = some c) :
    e.SwitchesWhole name (e.run [.exitMode, .changeMode name]) ↔ e.CanSwitch name := by
  have hchild : e.tree.child? (innermost below) name = some c := by
    rw [← h.sibling?_of_cons hstack, hsibling]
  have hshows := h.shows_switch hstack hchild
  have hiff := h.switched_live_iff hstack hchild
  simp only [← hshows.mem_enabled] at hiff
  have hcurrent : e.current = left := current_of_cons hstack
  constructor
  · rintro (⟨hsome, -, hlive⟩ | ⟨hnone, -, -⟩)
    · obtain rfl := Option.some.inj (hsibling.symm.trans hsome)
      obtain ⟨hclean, hroot⟩ := hiff.mp hlive
      refine .toSibling hsibling ?_ ?_
      · rwa [hstack, hcurrent]
      · rwa [hstack]
    · rw [hsibling] at hnone
      cases hnone
  · rintro (⟨hsome, hclean, hroot⟩ | ⟨hnil, -⟩)
    · obtain rfl := Option.some.inj (hsibling.symm.trans hsome)
      rw [hstack, hcurrent] at hclean
      rw [hstack] at hroot
      refine .switched hsibling ?_ (hiff.mpr ⟨hclean, hroot⟩)
      rw [hshows.stack_eq, hstack, List.tail_cons]
    · rw [hstack] at hnil
      cases hnil

/-- **Whole or not**: an attempt to switch is whole in exactly these engines. -/
theorem Consistent.switchesWhole_iff (h : e.Consistent d) (name : String) :
    e.SwitchesWhole name (e.run [.exitMode, .changeMode name]) ↔ e.CanSwitch name := by
  cases hstack : e.stack with
  | nil => exact h.switchesWhole_iff_of_nil hstack name
  | cons left below =>
    cases hsibling : e.sibling? name with
    | none =>
      refine iff_of_false (h.not_switchesWhole_of_cons hstack hsibling) ?_
      rintro (⟨hsome, -, -⟩ | ⟨hnil, -⟩)
      · rw [hsibling] at hsome
        cases hsome
      · rw [hstack] at hnil
        cases hnil
    | some c => exact h.switchesWhole_iff_of_sibling hstack hsibling

/-- Where nothing is live but the root and the current mode, all of them, a switch is whole if and only if
    there is a sibling of the name, or at the root no child. -/
theorem Plain.canSwitch_iff (hplain : e.Plain) (name : String) :
    e.CanSwitch name ↔
      (∃ sibling, e.sibling? name = some sibling) ∨
        (e.stack = [] ∧ e.tree.child? Tree.root name = none) := by
  constructor
  · rintro (⟨hsibling, -, -⟩ | ⟨hstack, hchild⟩)
    · exact Or.inl ⟨_, hsibling⟩
    · exact Or.inr ⟨hstack, hchild⟩
  · rintro (⟨sibling, hsibling⟩ | ⟨hstack, hchild⟩)
    · refine .toSibling hsibling ?_ (Or.inr ?_)
      · intro g hg
        rcases (hplain.mem_enabled g).mp hg with hroot | hcurrent
        · exact Or.inl hroot
        · exact Or.inr (Or.inl hcurrent)
      · intro g hroot
        exact (hplain.mem_enabled g).mpr (Or.inl hroot)
    · exact .nowhere hstack hchild

end Engine

namespace Session

variable {s : Session}

/-! ## By voice -/

/-- A phrase that is to switch to a sibling asks the engine to leave a mode and to enter one. -/
theorem engine_handlePhrase_of_switching {spoken name : String} (file : FileContent)
    (hasks : (s.heard spoken).bind Command.function = some .switchSiblingMode)
    (hword : (lowerWords spoken)[2]? = some name) :
    (s.handlePhrase file spoken).state.engine = s.engine.run [.exitMode, .changeMode name] := by
  obtain ⟨command, hheard, hfunction⟩ := Option.bind_eq_some_iff.mp hasks
  have hinterpret : interpret s.worker.shown.size (lowerWords spoken) .switchSiblingMode =
      ask (.switchSibling name) := by
    rw [interpret, wordAt, hword]
    rfl
  rw [engine_handlePhrase, phraseOperations, hheard]
  dsimp only
  rw [hfunction, functionOperations, hinterpret]
  rfl

/-- **All or nothing, or not**: after any turns of a new session, a phrase that is to switch to the sibling
    of a name leads to `stackAfterSwitch`, and is whole if and only if `CanSwitch` held before it. -/
theorem switchesWhole_iff_canSwitch (screen : ScreenState) (turns : List Turn) (file : FileContent)
    {spoken name : String}
    (hasks : (((start screen).run turns).heard spoken).bind Command.function = some .switchSiblingMode)
    (hword : (lowerWords spoken)[2]? = some name) :
    let e := ((start screen).run turns).engine
    let e' := (((start screen).run turns).handlePhrase file spoken).state.engine
    e'.stack = e.stackAfterSwitch name ∧ (e.SwitchesWhole name e' ↔ e.CanSwitch name) := by
  obtain ⟨ops, hops⟩ := exists_engine_run_start screen turns
  obtain ⟨d, h⟩ := Engine.consistent_empty.run ops
  rw [← hops] at h
  dsimp only
  rw [engine_handlePhrase_of_switching file hasks hword]
  exact ⟨h.stack_switch name, h.switchesWhole_iff name⟩

/-- Definitions of two siblings, with commands to enter a mode and to switch between modes. -/
def siblings : ModeDefinition :=
  ⟨[], [⟨none, "change mode $dictate", none, some "change_mode"⟩,
      ⟨none, "switch mode $dictate", none, some "switch_sibling_mode"⟩],
    [("program", ⟨[], [⟨none, "dot", some "", none⟩], []⟩),
      ("spell", ⟨[], [⟨none, "alpha", some "", none⟩], []⟩)]⟩

/-- They are loaded, and the first is entered. -/
def intoProgram : List Turn :=
  [.load (some siblings.toText.toUTF8), .say none "change mode program"]

/-- The session that this leads to on a screen without extent. -/
def inProgram : Session :=
  ({ start ⟨⟨0, 0⟩, ⟨0, 0⟩⟩ with
    engine := (Engine.empty.load siblings).state }.handlePhrase none "change mode program").state

theorem run_intoProgram : (start ⟨⟨0, 0⟩, ⟨0, 0⟩⟩).run intoProgram = inProgram := by
  have hread : readDefinitions (some siblings.toText.toUTF8) = .ok siblings :=
    readDefinitions_toText (by decide +kernel) (by decide +kernel)
  have hload : ((start ⟨⟨0, 0⟩, ⟨0, 0⟩⟩).load (some siblings.toText.toUTF8)).state =
      { start ⟨⟨0, 0⟩, ⟨0, 0⟩⟩ with engine := (Engine.empty.load siblings).state } := by
    rw [load, hread]
    dsimp only
    cases ((start ⟨⟨0, 0⟩, ⟨0, 0⟩⟩).engine.load siblings).result with
    | error err => rfl
    | ok _ => rfl
  rw [run, intoProgram, List.foldl_cons, List.foldl_cons, List.foldl_nil, turn, turn, hload, inProgram]

/-- From one sibling to the other the switch is whole. -/
theorem switchesWhole_to_spell :
    (((start ⟨⟨0, 0⟩, ⟨0, 0⟩⟩).run intoProgram).heard "switch mode Spell").bind Command.function =
        some .switchSiblingMode ∧
      (lowerWords "switch mode Spell")[2]? = some "spell" ∧
        ((start ⟨⟨0, 0⟩, ⟨0, 0⟩⟩).run intoProgram).engine.SwitchesWhole "spell"
          (((start ⟨⟨0, 0⟩, ⟨0, 0⟩⟩).run intoProgram).handlePhrase none
            "switch mode Spell").state.engine := by
  have hasks : (inProgram.heard "switch mode Spell").bind Command.function =
      some .switchSiblingMode := by
    decide +kernel
  have hword : (lowerWords "switch mode Spell")[2]? = some "spell" := by
    decide +kernel
  have hsibling : inProgram.engine.sibling? "spell" = some 2 := by
    decide +kernel
  have hcan : inProgram.engine.CanSwitch "spell" :=
    .toSibling hsibling (by decide +kernel) (Or.inl (by decide +kernel))
  rw [← run_intoProgram] at hasks hcan
  obtain ⟨-, hwhole⟩ := switchesWhole_iff_canSwitch _ intoProgram none hasks hword
  exact ⟨hasks, hword, hwhole.mpr hcan⟩

/-- To a sibling that is not there it is not: the mode is left. -/
theorem not_switchesWhole_to_nowhere :
    ((start ⟨⟨0, 0⟩, ⟨0, 0⟩⟩).run intoProgram).engine.overlay = none ∧
      (((start ⟨⟨0, 0⟩, ⟨0, 0⟩⟩).run intoProgram).heard "switch mode nowhere").bind
        Command.function = some .switchSiblingMode ∧
        (lowerWords "switch mode nowhere")[2]? = some "nowhere" ∧
          ¬ ((start ⟨⟨0, 0⟩, ⟨0, 0⟩⟩).run intoProgram).engine.SwitchesWhole "nowhere"
            (((start ⟨⟨0, 0⟩, ⟨0, 0⟩⟩).run intoProgram).handlePhrase none
              "switch mode nowhere").state.engine := by
  rw [run_intoProgram]
  refine ⟨by decide +kernel, by decide +kernel, by decide +kernel, ?_⟩
  have hsibling : inProgram.engine.sibling? "nowhere" = none := by
    decide +kernel
  rintro (⟨hsome, -, -⟩ | ⟨-, hstack, -⟩)
  · rw [hsibling] at hsome
    cases hsome
  · revert hstack
    decide +kernel

end Session

end SpokenCommand
