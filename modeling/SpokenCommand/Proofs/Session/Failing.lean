import SpokenCommand.Proofs.Session.Remembering
/-!
A function that fails has done nothing.

1. **A worker that accepts** what it is handed never lets a function fail, and goes on accepting.  The
   worker of a session accepts until it is shut down, and from then on it does not run.

2. **Requests.**  When the worker accepts, only those that put on or lift an overlay can fail
   (`Unperformable`), and they fail before anything is done.

3. **The crux** is that a function has one request to make at most, after it has read all the words that
   it reads.  It fails because it can make nothing of the words, and then there is no request, or because
   the request cannot be performed (`runFunction_eq_error_iff`).

4. **The phrase** of a command whose function fails therefore comes to playing the actions of the command
   once and to a notice (`handlePhrase_of_failing`).
-/

namespace SpokenCommand

open Modes Playback Script

/-! ## A worker that accepts -/

namespace Playback.Worker

variable {w : Worker}

/-- The player is running, and the queue takes requests.  A session closes the queue only in shutting
    down, which waits until the player has stopped. -/
def Accepts (w : Worker) : Prop := w.isRunning = true ∧ w.isOpen = true

/-- A worker with a request behind all others. -/
def enqueue (w : Worker) (request : List Step) : Worker :=
  { w with
    queue := w.queue ++ [⟨w.nextTicket, request⟩]
    nextTicket := w.nextTicket + 1
    pending := some w.nextTicket }

/-- A request is put behind all others, once; one without steps is not. -/
theorem Accepts.submit_eq (h : w.Accepts) (request : List Step) :
    w.submit request = (if request = [] then w else w.enqueue request, .ok ()) := by
  have haccepts : (w.isRunning && w.isOpen) = true := by rw [h.1, h.2, Bool.and_self]
  rw [submit]
  by_cases hempty : request = []
  · rw [if_pos hempty, if_pos (List.isEmpty_iff.mpr hempty)]
  · rw [if_neg hempty, if_neg (mt List.isEmpty_iff.mp hempty), if_pos haccepts, enqueue]

theorem Accepts.submit (h : w.Accepts) (request : List Step) : (w.submit request).1.Accepts := by
  rw [h.submit_eq]
  dsimp only
  split
  · exact h
  · exact h

theorem IsServing.accepts (h : w.IsServing) : w.Accepts := ⟨h.isRunning, h.1⟩

/-- The player has stopped and says so. -/
def IsOver (w : Worker) : Prop := w.isRunning = false ∧ w.activity = .stopped

theorem IsServing.isOver_shutdown (h : w.IsServing) : w.shutdown.IsOver := by
  obtain ⟨-, screen, accepted, horderly⟩ := h.drain
  have hstopped : w.shutdown.isStopped = true := isStopped_advanceUntil (w := w.drain.close) rfl
  have horderly' : w.shutdown.Orderly screen accepted := horderly.close.advanceUntil _ _
  refine ⟨?_, isStopped_iff.mp hstopped⟩
  rw [horderly'.isRunning_eq, ← isStopped, hstopped, Bool.not_true]

theorem IsOver.submit_eq (h : w.IsOver) (request : List Step) : (w.submit request).1 = w := by
  rw [submit, h.1, Bool.false_and]
  split
  · rfl
  · rfl

theorem IsOver.submitAll_eq (h : w.IsOver) (requests : List (List Step)) : w.submitAll requests = w := by
  induction requests with
  | nil => rfl
  | cons request rest ih =>
    show (w.submit request).1.submitAll rest = w
    rw [h.submit_eq, ih]

theorem IsOver.drain (h : w.IsOver) : w.drain.IsOver := by
  have hrest : IsAtRest { w with pending := none } := Or.inl h.2
  show (Worker.advanceUntil _ { w with pending := none } _).IsOver
  rw [advanceUntil_of_isAtRest hrest]
  exact h

end Playback.Worker

namespace Session

variable {s : Session} {request : Request} {function : Builtin} {words : List String}
  {command : Command} {e : FunctionError}

/-- The worker of a session accepts requests whatever turns the session has taken. -/
theorem accepts_run (screen : ScreenState) (turns : List Turn) :
    ((start screen).run turns).worker.Accepts :=
  ((recalls_start screen).run turns).isServing.accepts

theorem isOver_turn (h : s.worker.IsOver) (t : Turn) : (s.turn t).worker.IsOver := by
  cases t with
  | say file spoken =>
    rw [turn, worker_handlePhrase, h.submitAll_eq]
    dsimp only
    split
    · exact h.drain
    · exact h
  | load file =>
    rw [turn, worker_load]
    exact h
  | reload file =>
    rw [turn, state_reload, worker_load]
    exact h.drain
  | play =>
    show s.worker.advance.IsOver
    rw [Worker.advance_of_isAtRest (Or.inl h.2)]
    exact h

/-- The worker of a session that was shut down does not run, whatever turns the session takes then. -/
theorem isOver_run_shutdown (screen : ScreenState) (turns later : List Turn) :
    (((start screen).run turns).shutdown.run later).worker.IsOver := by
  have hstopped : ((start screen).run turns).shutdown.worker.IsOver :=
    ((recalls_start screen).run turns).isServing.isOver_shutdown
  generalize ((start screen).run turns).shutdown = s at hstopped
  induction later generalizing s with
  | nil => exact hstopped
  | cons t rest ih => exact ih _ (isOver_turn hstopped t)

/-! ## Requests that fail -/

/-- **Why a request fails**, when the worker accepts. -/
inductive Unperformable (s : Session) : Request → FunctionError → Prop
  | /-- There is no mode of the name. -/
    unknownMode {name} (hnone : s.engine.tree.find? name = none) :
      Unperformable s (.enterExclusive name) (.unknownMode name)
  | /-- There is an overlay already. -/
    alreadyActive {name target} (htarget : s.engine.tree.find? name = some target)
      (hoverlay : s.engine.overlay ≠ none) :
      Unperformable s (.enterExclusive name) (.overlay .alreadyActive)
  | /-- There is no overlay. -/
    notActive (hoverlay : s.engine.overlay = none) :
      Unperformable s .exitExclusive (.overlay .notActive)

/-- Nothing is done. -/
theorem Unperformable.perform_eq (h : s.Unperformable request e) :
    s.perform request = { state := s, result := .error e } := by
  cases h with
  | unknownMode hnone =>
    rw [perform, hnone]
  | alreadyActive htarget hoverlay =>
    obtain ⟨overlay, hoverlay⟩ := Option.ne_none_iff_exists'.mp hoverlay
    rw [perform, htarget]
    dsimp only
    rw [Engine.enterExclusive, hoverlay]
    rfl
  | notActive hoverlay =>
    rw [perform, Engine.exclusiveTarget, hoverlay]
    rfl

theorem result_play (h : s.worker.Accepts) (steps : List Step) : (s.play steps).2 = .ok () := by
  rw [play, h.submit_eq]

theorem result_repeatTimes (h : s.worker.Accepts) (n : Nat) : (s.repeatTimes n).2 = .ok () := by
  induction n generalizing s with
  | zero => rfl
  | succ n ih =>
    have hplayed := result_play h s.lastSteps
    have haccepts : s.repeatLast.1.worker.Accepts := h.submit s.lastSteps
    rw [repeatTimes]
    rw [← repeatLast] at hplayed
    split
    · rename_i s' _ hrepeat
      rw [hrepeat] at haccepts
      exact ih haccepts
    · rename_i s' _ hrepeat
      rw [hrepeat] at hplayed
      cases hplayed

theorem result_ofPlay {outcome : Session × Except Refusal Unit} (h : outcome.2 = .ok ()) :
    (ofPlay outcome).result = .ok () := by
  rw [ofPlay, h]

/-- **All other requests** are performed. -/
theorem unperformable_of_perform (h : s.worker.Accepts)
    (hfails : (s.perform request).result = .error e) : s.Unperformable request e := by
  cases request with
  | setMuted | changeMode | exitMode | switchSibling | reload | reportCursor => cases hfails
  | repeatLast times =>
    have hok : (s.perform (.repeatLast times)).result = .ok () :=
      result_ofPlay (result_repeatTimes h times)
    rw [hok] at hfails
    cases hfails
  | play steps =>
    have hok : (s.perform (.play steps)).result = .ok () := result_ofPlay (result_play h steps)
    rw [hok] at hfails
    cases hfails
  | playAndRemember steps =>
    have hremembering : { s with lastSteps := steps }.worker.Accepts := h
    have hok : (s.perform (.playAndRemember steps)).result = .ok () :=
      result_ofPlay (result_play hremembering steps)
    rw [hok] at hfails
    cases hfails
  | enterExclusive name =>
    rw [perform] at hfails
    cases htarget : s.engine.tree.find? name with
    | none =>
      rw [htarget] at hfails
      obtain rfl := Except.error.inj hfails
      exact .unknownMode htarget
    | some target =>
      rw [htarget] at hfails
      dsimp only at hfails
      rw [Engine.enterExclusive] at hfails
      cases hoverlay : s.engine.overlay with
      | none =>
        rw [hoverlay] at hfails
        cases hfails
      | some overlay =>
        rw [hoverlay] at hfails
        obtain rfl := Except.error.inj hfails
        exact .alreadyActive htarget (by rw [hoverlay]; exact Option.some_ne_none overlay)
  | exitExclusive =>
    rw [perform, Engine.exclusiveTarget] at hfails
    cases hoverlay : s.engine.overlay with
    | none =>
      rw [hoverlay] at hfails
      obtain rfl := Except.error.inj hfails
      exact .notActive hoverlay
    | some overlay =>
      rw [hoverlay] at hfails
      dsimp only [Option.map_some] at hfails
      rw [Engine.exitExclusive, hoverlay] at hfails
      cases hfails

/-! ## Functions that fail -/

/-- **Why a function fails**: it makes nothing of the words, or what it asks for cannot be performed. -/
theorem runFunction_eq_error_iff (h : s.worker.Accepts) :
    (s.runFunction function words).result = .error e ↔
      interpret s.worker.shown.size words function = .error e ∨
        ∃ i, interpret s.worker.shown.size words function = .ok i ∧ s.Unperformable i.request e := by
  rw [runFunction]
  cases hinterpret : interpret s.worker.shown.size words function with
  | error e' => simp
  | ok i =>
    have hresult : ((s.perform i.request).result.map fun _ => i.request == .reload) = .error e ↔
        (s.perform i.request).result = .error e := by
      cases (s.perform i.request).result <;> simp [Except.map]
    dsimp only
    rw [hresult]
    constructor
    · intro hfails
      exact Or.inr ⟨i, rfl, unperformable_of_perform h hfails⟩
    · rintro (hfails | ⟨i', hi, hfails⟩)
      · cases hfails
      · obtain rfl := Except.ok.inj hi
        rw [hfails.perform_eq]

/-- **A function that fails** has changed nothing and made nothing happen. -/
theorem runFunction_of_failing (h : s.worker.Accepts)
    (hfails : (s.runFunction function words).result = .error e) :
    (s.runFunction function words).state = s ∧ (s.runFunction function words).events = [] := by
  rcases (runFunction_eq_error_iff h).mp hfails with hinterpret | ⟨i, hinterpret, hrequest⟩
  · rw [runFunction, hinterpret]
    exact ⟨rfl, rfl⟩
  · rw [runFunction, hinterpret]
    dsimp only
    rw [hrequest.perform_eq]
    exact ⟨rfl, rfl⟩

/-! ## Phrases whose function fails -/

/-- The session after the actions of a command: if there are any, they are remembered and stand in the
    queue, once and behind everything else. -/
def afterActions (s : Session) (command : Command) : Session :=
  if command.actions = [] then s
  else { s with lastSteps := command.actions, worker := s.worker.enqueue command.actions }

theorem accepts_afterActions (h : s.worker.Accepts) (command : Command) :
    (s.afterActions command).worker.Accepts := by
  rw [afterActions]
  split
  · exact h
  · exact h

theorem runActions_eq (h : s.worker.Accepts) (command : Command) :
    s.runActions command = { state := s.afterActions command, result := () } := by
  rw [runActions, afterActions]
  by_cases hactions : command.actions = []
  · rw [if_pos hactions, if_pos (List.isEmpty_iff.mpr hactions)]
  · rw [if_neg hactions, if_neg (mt List.isEmpty_iff.mp hactions), playAndRemember, play]
    have hremembering : { s with lastSteps := command.actions }.worker.Accepts := h
    rw [hremembering.submit_eq, if_neg hactions]

/-- **A phrase whose function fails** has the actions of its command played, and nothing else. -/
theorem handlePhrase_of_failing (h : s.worker.Accepts) (file : FileContent) {spoken : String}
    (hheard : s.heard spoken = some command) (hfunction : command.function = some function)
    (hfails : ((s.afterActions command).runFunction function (lowerWords spoken)).result = .error e) :
    s.handlePhrase file spoken =
      { state := s.afterActions command
        result := .recognized command.name
        events := [.commandRecognized command.name (Text.trim spoken)]
        notices := ((s.afterActions command).runFunction function (lowerWords spoken)).notices ++
          [.functionFailed function.name e.message] } := by
  obtain ⟨hstate, hevents⟩ := runFunction_of_failing (accepts_afterActions h command) hfails
  have hrun : (s.afterActions command).runFunctionOf command (lowerWords spoken) =
      { state := s.afterActions command
        result := false
        notices := ((s.afterActions command).runFunction function (lowerWords spoken)).notices ++
          [.functionFailed function.name e.message] } := by
    rw [runFunctionOf, hfunction]
    dsimp only [Reaction.andThen]
    rw [hfails, hstate, hevents]
    rfl
  rw [handlePhrase_eq, hheard]
  dsimp only
  rw [carryOut, runActions_eq h, Reaction.andThen]
  dsimp only
  rw [hrun]
  simp only [Reaction.andThen, Bool.false_eq_true, if_false, List.append_nil, List.nil_append]

/-- **Failures without effect**: in every session whose worker accepts,

    * a function that fails leaves the session as it is, engine, worker, muting and the steps to repeat,
      and nothing is made known but its notices; having failed, it has not asked for a reload;
    * a phrase whose function fails is recognized all the same.  The function is run after the actions of
      the command have been submitted, and nothing is done after it. -/
theorem failing_function (s : Session) (h : s.worker.Accepts) :
    (∀ function words e, (s.runFunction function words).result = .error e →
      (s.runFunction function words).state = s ∧ (s.runFunction function words).events = []) ∧
    ∀ file spoken command function e, s.heard spoken = some command →
      command.function = some function →
      ((s.afterActions command).runFunction function (lowerWords spoken)).result = .error e →
      s.handlePhrase file spoken =
        { state := s.afterActions command
          result := .recognized command.name
          events := [.commandRecognized command.name (Text.trim spoken)]
          notices := ((s.afterActions command).runFunction function (lowerWords spoken)).notices ++
            [.functionFailed function.name e.message] } :=
  ⟨fun _ _ _ hfails => runFunction_of_failing h hfails,
    fun file _ _ _ _ hheard hfunction hfails => handlePhrase_of_failing h file hheard hfunction hfails⟩

/-- A session with one command, which presses a key and then puts the cursor somewhere. -/
def gridSession : Session :=
  { start ⟨⟨0, 0⟩, ⟨1920, 1080⟩⟩ with
    engine := (Engine.empty.load
      ⟨[], [⟨some "grid", "grid $dictate", some "Enter", some "mouse_grid"⟩], []⟩).state }

/-- No section of the grid is called `five`: the key is pressed once, and the cursor stays. -/
theorem failing_function_grid :
    gridSession.worker.Accepts ∧
      (gridSession.runFunction .mouseGrid ["grid", "one", "five"]).result =
        .error (.unknownGridSection "five") ∧
      (gridSession.runFunction .mouseGrid ["grid", "one", "five"]).state = gridSession ∧
      ∃ command, gridSession.heard "Grid one five" = some command ∧
        command.function = some .mouseGrid ∧
        ((gridSession.afterActions command).runFunction .mouseGrid
          (lowerWords "Grid one five")).result = .error (.unknownGridSection "five") ∧
        (gridSession.handlePhrase none "Grid one five").state = gridSession.afterActions command ∧
        (gridSession.handlePhrase none "Grid one five").state.worker.queue.map (·.steps) =
          [[.tap .enter]] := by
  have haccepts : gridSession.worker.Accepts := ⟨rfl, rfl⟩
  have hfails : (gridSession.runFunction .mouseGrid ["grid", "one", "five"]).result =
      .error (.unknownGridSection "five") := by
    decide +kernel
  obtain ⟨command, hheard⟩ : ∃ command, gridSession.heard "Grid one five" = some command :=
    Option.isSome_iff_exists.mp (by decide +kernel)
  have hfunction : (gridSession.heard "Grid one five").bind Command.function = some .mouseGrid := by
    decide +kernel
  have hactions : (gridSession.heard "Grid one five").map Command.actions = some [.tap .enter] := by
    decide +kernel
  have hphrase : (gridSession.heard "Grid one five").map (fun command =>
      ((gridSession.afterActions command).runFunction .mouseGrid
        (lowerWords "Grid one five")).result) = some (.error (.unknownGridSection "five")) := by
    decide +kernel
  rw [hheard] at hfunction hactions hphrase
  obtain ⟨hfunctions, hphrases⟩ := failing_function gridSession haccepts
  have hreaction := hphrases none _ command _ _ hheard hfunction (Option.some.inj hphrase)
  refine ⟨haccepts, hfails, (hfunctions _ _ _ hfails).1, command, hheard, hfunction,
    Option.some.inj hphrase, congrArg (·.state) hreaction, ?_⟩
  rw [hreaction]
  dsimp only
  rw [afterActions, Option.some.inj hactions]
  rfl

end Session

end SpokenCommand
