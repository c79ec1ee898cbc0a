import SpokenCommand.Proofs.Modes.Shape
import SpokenCommand.Proofs.Modes.Written
import SpokenCommand.Proofs.Session.Reload
/-!
What a session keeps of the modes in its definitions file.

Whoever writes a mode expects it to be loaded or to be told.  A mode whose name is that of another one in
different letter case is refused with the whole file.  One that repeats the name as it is takes the place of
the other, which is lost with its commands and with everything below it, and nobody is told.

1. **A file that loads** has been read and compiled, so that the tree holds what is written in it once
   repeated names are merged.

2. **The loss** is told by the text (`load_keeps_written`): the tree holds all modes exactly if no name is
   repeated, and then they are distinct in lowercase as well.
-/

namespace SpokenCommand

open Modes

namespace Session

variable {file : FileContent} {tree : Tree} {w : Workspace}

/-- A file that compiles is a JSON text, and its tree is that of what is written in it, merged. -/
theorem Compiles.exists_written (h : Compiles file tree w) :
    ∃ bytes text value, file = some bytes ∧ String.fromUTF8? bytes = some text ∧
      Json.read text = some value ∧ Tree.compile .builtin (written value).merged = (.ok tree, w) := by
  obtain @⟨bytes, text, definition, _, _, htext, hdefinition, hcompile⟩ := h
  rw [ModeDefinition.ofText?, Option.bind_eq_some_iff] at hdefinition
  obtain ⟨value, hvalue, hmode⟩ := hdefinition
  rw [← merged_written_of_readMode hmode] at hcompile
  exact ⟨bytes, text, value, rfl, htext, hvalue, hcompile⟩

theorem compiles_of_load {s : Session} (h : (s.load file).result = .ok ()) :
    ∃ w, Compiles file (s.load file).state.engine.tree w := by
  rcases compiles_or_fails file with ⟨tree, w, hcompiles⟩ | ⟨err, notices, hfails⟩
  · refine ⟨w, ?_⟩
    rw [hcompiles.load_eq]
    exact hcompiles
  · rw [hfails.load_eq] at h
    cases h

/-- The children of a mode that is loaded go by distinct names. -/
theorem nodup_children_of_load {s : Session} (h : (s.load file).result = .ok ()) :
    ∀ mode ∈ (s.load file).state.engine.tree.modes, (mode.children.map Prod.fst).Nodup := by
  obtain ⟨w, hcompiles⟩ := compiles_of_load h
  obtain ⟨_, _, _, -, -, -, hcompile⟩ := hcompiles.exists_written
  exact (compiled_of_compile hcompile).nodup_children

/-- A file that is written for modes, their names repeated or not, loads if what is read of it compiles. -/
theorem load_toText {d read : ModeDefinition} (s : Session)
    (hread : readMode maxDepth d.toJson = some read)
    (hcompile : (Tree.compile .builtin read).1.isOk = true) :
    (s.load (some d.toText.toUTF8)).result = .ok () := by
  have hdefinition : ModeDefinition.ofText? d.toText = some read :=
    d.ofText?_toText_eq_readMode.trans hread
  rcases h : Tree.compile .builtin read with ⟨err | tree, w⟩
  · rw [h] at hcompile
    cases hcompile
  · rw [(Compiles.intro (fromUTF8?_toUTF8 d.toText) hdefinition h).load_eq]

/-- **What is kept** of a file that loads:

    * every child mode that is written in it is a mode of the tree, with all its commands and its own child
      modes, except that of several with one name the last stands in the place of the first;
    * those that are left have names that are distinct in lowercase, wherever they stand;
    * so all that is written is kept exactly if no name is repeated among the child modes of one mode, and
      this is so exactly if no name is repeated in any letter case. -/
theorem load_keeps_written (s : Session) (file : FileContent) (h : (s.load file).result = .ok ()) :
    ∃ bytes text value, file = some bytes ∧ String.fromUTF8? bytes = some text ∧
      Json.read text = some value ∧
      let tree := (s.load file).state.engine.tree
      let d := written value
      tree.Holds none "" Tree.root d.merged ∧
        (∀ m ∈ d.merged.preorder, (m.modes.map fun entry => Text.lowercase entry.1).Nodup) ∧
        (tree.Holds none "" Tree.root d ↔ ∀ m ∈ d.preorder, (m.modes.map Prod.fst).Nodup) ∧
        ((∀ m ∈ d.preorder, (m.modes.map fun entry => Text.lowercase entry.1).Nodup) ↔
          ∀ m ∈ d.preorder, (m.modes.map Prod.fst).Nodup) := by
  obtain ⟨w, hcompiles⟩ := compiles_of_load h
  obtain ⟨bytes, text, value, hfile, htext, hvalue, hcompile⟩ := hcompiles.exists_written
  have hkeys := nodup_children_of_load h
  have hmerged := Tree.holds_of_compile hcompile
  have hiff := Tree.holds_iff_of_compile hcompile
  refine ⟨bytes, text, value, hfile, htext, hvalue, hmerged, hmerged.nodup_names hkeys _, hiff, ?_⟩
  constructor
  · intro hlower m hm
    refine List.Nodup.of_map Text.lowercase ?_
    rw [List.map_map]
    exact hlower m hm
  · intro hnames
    exact (hiff.mpr hnames).nodup_names hkeys _

/-- Where names are distinct, everything is kept. -/
theorem load_keeps_written_nested :
    ((start ⟨⟨0, 0⟩, ⟨0, 0⟩⟩).load (some Tree.nested.toText.toUTF8)).result = .ok () ∧
      ((start ⟨⟨0, 0⟩, ⟨0, 0⟩⟩).load (some Tree.nested.toText.toUTF8)).state.engine.tree.Holds none ""
        Tree.root Tree.nested := by
  have hload : ((start ⟨⟨0, 0⟩, ⟨0, 0⟩⟩).load (some Tree.nested.toText.toUTF8)).result = .ok () :=
    load_toText _ (show _ = some Tree.nested from rfl) (by decide +kernel)
  obtain ⟨bytes, text, value, hfile, htext, hvalue, -, -, hiff, -⟩ := load_keeps_written _ _ hload
  obtain rfl := Option.some.inj hfile
  obtain rfl := Option.some.inj ((fromUTF8?_toUTF8 _).symm.trans htext)
  obtain rfl := Option.some.inj ((Json.read_render Tree.nested.isSpelled_toJson).symm.trans hvalue)
  have hwritten : written Tree.nested.toJson = Tree.nested := rfl
  have hnames : ∀ m ∈ Tree.nested.preorder, (m.modes.map Prod.fst).Nodup := by
    decide +kernel
  rw [hwritten] at hiff
  exact ⟨hload, hiff.mpr hnames⟩

/-- Definitions in which the name of a mode is repeated. -/
def repeating : ModeDefinition :=
  ⟨[], [], [("a", ⟨[], [⟨none, "x", some "", none⟩], []⟩), ("a", .empty)]⟩

/-- They are loaded although a name is repeated, and the tree does not hold the first mode of the name. -/
theorem not_load_keeps_repeating :
    ((start ⟨⟨0, 0⟩, ⟨0, 0⟩⟩).load (some repeating.toText.toUTF8)).result = .ok () ∧
      Json.read repeating.toText = some repeating.toJson ∧ written repeating.toJson = repeating ∧
      ¬ (∀ m ∈ repeating.preorder, (m.modes.map fun entry => Text.lowercase entry.1).Nodup) ∧
      ¬ ((start ⟨⟨0, 0⟩, ⟨0, 0⟩⟩).load (some repeating.toText.toUTF8)).state.engine.tree.Holds none ""
        Tree.root repeating := by
  have hload : ((start ⟨⟨0, 0⟩, ⟨0, 0⟩⟩).load (some repeating.toText.toUTF8)).result = .ok () :=
    load_toText _ (show _ = some ⟨[], [], [("a", .empty)]⟩ from rfl) (by decide +kernel)
  have hread : Json.read repeating.toText = some repeating.toJson :=
    Json.read_render repeating.isSpelled_toJson
  have hrepeated : ¬ ∀ m ∈ repeating.preorder,
      (m.modes.map fun entry => Text.lowercase entry.1).Nodup := by
    decide +kernel
  have hwritten : written repeating.toJson = repeating := rfl
  refine ⟨hload, hread, hwritten, hrepeated, ?_⟩
  intro hholds
  exact hrepeated (hholds.nodup_names (nodup_children_of_load hload) repeating)

end Session

end SpokenCommand
