import SpokenCommand.Proofs.Activation.Runs
import SpokenCommand.Proofs.Session.Remembering
/-!
What a session asks of its engine.

A session changes its engine by OPERATIONS and in no other way: it is carried through turns by the
operations that `operations` reads off the session and the turn before anything is done
(`engine_turn`).  Whatever holds in every run of an engine therefore holds in the engine of every
session (`engine_run`).

At most two operations are asked for at once, by a function that switches between siblings.  Playing
steps, muting and waiting for the player are not seen by the engine at all.
-/

namespace SpokenCommand

open Modes Playback Script

namespace Session

variable {s : Session} {file : FileContent} {words : List String}

/-! ## Requests -/

/-- What a request asks of the engine. -/
def Request.operations (e : Engine) : Request → List Operation
  | .changeMode name => [.changeMode name]
  | .exitMode => [.exitMode]
  | .switchSibling name => [.exitMode, .changeMode name]
  | .enterExclusive name => ((e.tree.find? name).map Operation.enterExclusive).toList
  | .exitExclusive => (e.exclusiveTarget.map Operation.exitExclusive).toList
  | _ => []

/-- What a function asks of the engine; nothing if it fails. -/
def functionOperations (screen : Size) (words : List String) (e : Engine) :
    Option Builtin → List Operation
  | none => []
  | some function =>
    match interpret screen words function with
    | .error _ => []
    | .ok i => i.request.operations e

/-- Loading a file asks for the definitions that it describes. -/
def loadOperations (file : FileContent) : List Operation :=
  match readDefinitions file with
  | .error _ => []
  | .ok definition => [.load definition]

/-- Playing again and again is seen by the player alone. -/
theorem exists_repeatTimes_eq (s : Session) (n : Nat) :
    ∃ worker, (s.repeatTimes n).1 = { s with worker } := by
  induction n generalizing s with
  | zero => exact ⟨s.worker, rfl⟩
  | succ n ih =>
    obtain ⟨worker, honce⟩ : ∃ worker, s.repeatLast.1 = { s with worker } := ⟨_, rfl⟩
    rw [repeatTimes]
    split
    · rename_i s' _ hrepeat
      rw [hrepeat] at honce
      obtain rfl : s' = { s with worker } := honce
      exact ih { s with worker }
    · rename_i s' e hrepeat
      rw [hrepeat] at honce
      exact ⟨worker, honce⟩

theorem engine_perform (s : Session) (request : Request) :
    (s.perform request).state.engine = s.engine.run (request.operations s.engine) := by
  cases request with
  | setMuted isMuted => rfl
  | changeMode name => rfl
  | exitMode => rfl
  | switchSibling name => rfl
  | enterExclusive name =>
    rw [perform, Request.operations]
    cases s.engine.tree.find? name with
    | none => rfl
    | some target => rfl
  | exitExclusive =>
    rw [perform, Request.operations]
    cases s.engine.exclusiveTarget with
    | none => rfl
    | some target => rfl
  | reload => rfl
  | repeatLast times =>
    obtain ⟨worker, heq⟩ := s.exists_repeatTimes_eq times
    show (s.repeatTimes times).1.engine = s.engine
    rw [heq]
  | play steps => rfl
  | playAndRemember steps => rfl
  | reportCursor => rfl

theorem engine_load (s : Session) (file : FileContent) :
    (s.load file).state.engine = s.engine.run (loadOperations file) := by
  rw [load, loadOperations]
  cases readDefinitions file with
  | error err => rfl
  | ok definition =>
    dsimp only
    show _ = (s.engine.load definition).state
    cases (s.engine.load definition).result with
    | error err => rfl
    | ok _ => rfl

theorem engine_reload (s : Session) (file : FileContent) :
    (s.reload file).state.engine = s.engine.run (loadOperations file) := by
  rw [state_reload, engine_load]
  rfl

/-! ## Phrases -/

/-- Actions are played and remembered, and that is all. -/
theorem exists_runActions_eq (s : Session) (command : Command) :
    ∃ worker lastSteps, (s.runActions command).state = { s with worker, lastSteps } := by
  obtain ⟨worker, hplayed⟩ : ∃ worker, (s.playAndRemember command.actions).1 =
      { s with worker, lastSteps := command.actions } := ⟨_, rfl⟩
  rw [runActions]
  split
  · exact ⟨s.worker, s.lastSteps, rfl⟩
  · split
    · rename_i s' _ hplay
      rw [hplay] at hplayed
      exact ⟨worker, command.actions, hplayed⟩
    · rename_i s' e hplay
      rw [hplay] at hplayed
      exact ⟨worker, command.actions, hplayed⟩

theorem engine_runActions (s : Session) (command : Command) :
    (s.runActions command).state.engine = s.engine := by
  obtain ⟨worker, lastSteps, heq⟩ := s.exists_runActions_eq command
  rw [heq]

theorem engine_runFunctionOf (s : Session) (command : Command) (words : List String) :
    (s.runFunctionOf command words).state.engine =
      s.engine.run (functionOperations s.worker.shown.size words s.engine command.function) := by
  cases hfunction : command.function with
  | none =>
    rw [runFunctionOf, hfunction]
    rfl
  | some function =>
    rw [(runFunctionOf_of_some s words hfunction).1, functionOperations, runFunction]
    cases interpret s.worker.shown.size words function with
    | error e => rfl
    | ok i => exact s.engine_perform i.request

/-- What a phrase asks of the engine: what its function asks for, and then the reload that the function
    may want. -/
def phraseOperations (s : Session) (file : FileContent) (spoken : String) : List Operation :=
  match s.heard spoken with
  | none => []
  | some command =>
    functionOperations s.worker.shown.size (lowerWords spoken) s.engine command.function ++
      if command.function == some .reloadDefinitions then loadOperations file else []

theorem engine_handlePhrase (s : Session) (file : FileContent) (spoken : String) :
    (s.handlePhrase file spoken).state.engine = s.engine.run (s.phraseOperations file spoken) := by
  rw [handlePhrase_eq, phraseOperations]
  cases s.heard spoken with
  | none =>
    dsimp only
    split <;> rfl
  | some command =>
    have hactions := s.engine_runActions command
    have hfunction := (s.runActions command).state.engine_runFunctionOf command (lowerWords spoken)
    rw [(s.submits_runActions command).shown_eq, hactions] at hfunction
    have hresult := result_runFunctionOf (s.runActions command).state command (lowerWords spoken)
    simp only [carryOut, Reaction.andThen, hresult]
    split
    · rw [engine_reload, hfunction, Engine.run_append]
    · rw [hfunction, List.append_nil]

/-! ## Turns -/

/-- What a turn asks of the engine. -/
def turnOperations (s : Session) : Turn → List Operation
  | .say file spoken => s.phraseOperations file spoken
  | .load file => loadOperations file
  | .reload file => loadOperations file
  | .play => []

/-- What turns in order ask of the engine. -/
def operations (s : Session) : List Turn → List Operation
  | [] => []
  | t :: rest => s.turnOperations t ++ (s.turn t).operations rest

/-- **The step**: a turn changes the engine by the operations that it asks for. -/
theorem engine_turn (s : Session) (t : Turn) :
    (s.turn t).engine = s.engine.run (s.turnOperations t) := by
  cases t with
  | say file spoken => exact s.engine_handlePhrase file spoken
  | load file => exact s.engine_load file
  | reload file => exact s.engine_reload file
  | play => rfl

/-- **The run**: so do all turns. -/
theorem engine_run (s : Session) (turns : List Turn) :
    (s.run turns).engine = s.engine.run (s.operations turns) := by
  induction turns generalizing s with
  | nil => rfl
  | cons t rest ih =>
    show ((s.turn t).run rest).engine = _
    rw [ih, engine_turn, operations, Engine.run_append]

/-- The engine of a session has been led to where it is by operations. -/
theorem exists_engine_run_start (screen : ScreenState) (turns : List Turn) :
    ∃ ops, ((start screen).run turns).engine = Engine.empty.run ops :=
  ⟨_, (start screen).engine_run turns⟩

end Session

end SpokenCommand
