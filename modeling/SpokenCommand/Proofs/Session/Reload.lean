import SpokenCommand.Proofs.Modes.RoundTrip
import SpokenCommand.Session.Basic
/-!
A reload depends on the file alone, or changes nothing.

1. **The file alone** decides how a load ends: it describes modes that compile (`Compiles`), or it fails
   at one of four stages (`Fails`): there is no file, it is not text, the text does not describe modes,
   or these do not compile (`compiles_or_fails`).

2. **A load** is said once for each way in which it can end (`Compiles.load_eq`, `Fails.load_eq`), for a
   session with any past.

3. **Nothing of the past is left** in what is installed (`Engine.install_eq`): it is the same for every
   engine that it is installed on.  A session that has been reloaded is therefore where a new one gets
   to with the same file, or else where it was before.
-/

namespace SpokenCommand

open Modes Playback

namespace Session

variable {file : FileContent} {tree : Tree} {w : Workspace} {err : LoadError}

/-! ## What a file comes to -/

/-- The file describes modes, and compiling them gives a tree. -/
inductive Compiles : FileContent → Tree → Workspace → Prop
  | intro {bytes text definition tree w} (htext : String.fromUTF8? bytes = some text)
      (hdefinition : ModeDefinition.ofText? text = some definition)
      (hcompile : Tree.compile .builtin definition = (.ok tree, w)) :
      Compiles (some bytes) tree w

/-- The stages at which a file fails, each with its error, and what compiling left behind if it came to
    that. -/
inductive Fails : FileContent → LoadError → List Notice → Prop
  | /-- There is no file. -/
    missing : Fails none .unreadable []
  | /-- The file is not text. -/
    undecodable {bytes} (htext : String.fromUTF8? bytes = none) : Fails (some bytes) .unreadable []
  | /-- The text does not describe modes. -/
    malformed {bytes text} (htext : String.fromUTF8? bytes = some text)
      (hdefinition : ModeDefinition.ofText? text = none) : Fails (some bytes) .malformed []
  | /-- The modes do not compile. -/
    rejected {bytes text definition err w} (htext : String.fromUTF8? bytes = some text)
      (hdefinition : ModeDefinition.ofText? text = some definition)
      (hcompile : Tree.compile .builtin definition = (.error err, w)) :
      Fails (some bytes) err (w.notices ++ [.definitionsRejected err.message])

theorem compiles_or_fails (file : FileContent) :
    (∃ tree w, Compiles file tree w) ∨ ∃ err notices, Fails file err notices := by
  cases file with
  | none => exact Or.inr ⟨_, _, .missing⟩
  | some bytes =>
    cases htext : String.fromUTF8? bytes with
    | none => exact Or.inr ⟨_, _, .undecodable htext⟩
    | some text =>
      cases hdefinition : ModeDefinition.ofText? text with
      | none => exact Or.inr ⟨_, _, .malformed htext hdefinition⟩
      | some definition =>
        rcases hcompile : Tree.compile .builtin definition with ⟨err | tree, w⟩
        · exact Or.inr ⟨_, _, .rejected htext hdefinition hcompile⟩
        · exact Or.inl ⟨_, _, .intro htext hdefinition hcompile⟩

/-- A text is read back from its bytes. -/
theorem fromUTF8?_toUTF8 (text : String) : String.fromUTF8? text.toUTF8 = some text := by
  have hvalid : text.toUTF8.IsValidUTF8 := text.isValidUTF8
  rw [String.fromUTF8?, dif_pos hvalid]
  rfl

/-- A file that is written for a mode of distinct names describes that mode, unless it is nested too
    deep. -/
theorem readDefinitions_toText {d : ModeDefinition} (hnames : ∀ m ∈ d.preorder, m.HasDistinctNames)
    (hdepth : d.depth ≤ 63) : readDefinitions (some d.toText.toUTF8) = .ok d := by
  have hread : ModeDefinition.ofText? d.toText = some d := by
    have hmode := readMode_toJson d hnames 63
    rw [if_pos hdepth] at hmode
    exact d.ofText?_toText_eq_readMode.trans hmode
  rw [readDefinitions, fromUTF8?_toUTF8]
  dsimp only
  rw [hread]

/-! ## Loading -/

/-- A load that succeeds installs the tree of the file, and forgets the steps to repeat. -/
theorem Compiles.load_eq (h : Compiles file tree w) (s : Session) :
    s.load file =
      { state := { s with
          engine := { s.engine with templates := w.templates }.install tree
          lastSteps := [] }
        result := .ok (), notices := w.notices
        events := [.definitionsLoaded tree.modes.length tree.commands.length] } := by
  obtain ⟨htext, hdefinition, hcompile⟩ := h
  simp only [load, readDefinitions, htext, hdefinition, Engine.load, hcompile, Reaction.within]

/-- A load that fails, at whatever stage, leaves the session as it is. -/
theorem Fails.load_eq {notices : List Notice} (h : Fails file err notices) (s : Session) :
    s.load file =
      { state := s, result := .error err, events := [.reloadFailed err.message], notices } := by
  cases h with
  | missing => rfl
  | undecodable htext => simp only [load, readDefinitions, htext]
  | malformed htext hdefinition => simp only [load, readDefinitions, htext, hdefinition]
  | rejected htext hdefinition hcompile =>
    simp only [load, readDefinitions, htext, hdefinition, Engine.load, hcompile, Reaction.within]

/-- Loading leaves playback alone. -/
theorem worker_load (s : Session) (file : FileContent) : (s.load file).state.worker = s.worker := by
  rcases compiles_or_fails file with ⟨tree, w, h⟩ | ⟨err, notices, h⟩
  · rw [h.load_eq]
  · rw [h.load_eq]

/-- Reloading is loading once everything submitted is played. -/
theorem state_reload (s : Session) (file : FileContent) :
    (s.reload file).state = (s.drain.load file).state := by
  rw [reload, Reaction.andThen]
  cases (s.drain.load file).result <;> rfl

end Session

end SpokenCommand
