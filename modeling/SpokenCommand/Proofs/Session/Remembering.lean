import SpokenCommand.Proofs.Playback.Orderly
import SpokenCommand.Proofs.Session.Digits
import SpokenCommand.Proofs.Session.Dispatch
/-!
What is remembered, and what is repeated.

1. **A worker that serves** accepts every request, and goes on serving whatever the player and whoever
   submits do, as long as the queue is not closed.  What it is handed then stands in its queue, one
   request after another.

2. **Two things are remembered** (`rememberings_eq`): the actions of a command, and the keys that a phrase
   names to the function that presses them.  The other functions ask for nothing that is remembered.

3. **The trail** of a session in a run of TURNS are the submissions remembered since definitions were
   loaded last.  The invariant is that the steps to repeat are the last of the trail (`Recalls.turn`): a
   phrase adds to the trail first and empties it afterwards, if the reload that it asks for succeeds.

4. **Repeating** hands over what is remembered at that moment, which is the actions of the very command if
   it has any, as many times as the number of the phrase leaves to be played.
-/

namespace SpokenCommand

open Modes Playback Script

/-! ## A worker that serves -/

namespace Playback.Worker

variable {w : Worker} {request : List Step}

/-- The queue is open, and the player goes through the requests in order. -/
def IsServing (w : Worker) : Prop := w.isOpen = true ∧ ∃ screen accepted, w.Orderly screen accepted

theorem isServing_start (screen : ScreenState) : (start screen).IsServing :=
  ⟨rfl, screen, [], orderly_start screen⟩

/-- A player whose queue is open has not stopped. -/
theorem IsServing.isRunning (h : w.IsServing) : w.isRunning = true := by
  obtain ⟨hopen, screen, accepted, horderly⟩ := h
  rw [horderly.isRunning_eq, Bool.not_eq_true']
  by_contra hstopped
  rw [Bool.not_eq_false] at hstopped
  have hclosed := horderly.closed (Or.inr (isStopped_iff.mp hstopped))
  rw [hopen] at hclosed
  exact absurd hclosed.1 Bool.noConfusion

theorem IsServing.advance (h : w.IsServing) : w.advance.IsServing := by
  obtain ⟨hopen, screen, accepted, horderly⟩ := h
  exact ⟨w.advance_eq_submitter.1.trans hopen, screen, accepted, horderly.advance⟩

theorem IsServing.advanceUntil (h : w.IsServing) (holds : Worker → Bool) (allowed : Nat) :
    (w.advanceUntil holds allowed).IsServing := by
  obtain ⟨hopen, screen, accepted, horderly⟩ := h
  have hopen' := (isOpen_advanceUntil holds w allowed).trans hopen
  exact ⟨hopen', screen, accepted, horderly.advanceUntil holds allowed⟩

theorem IsServing.drain (h : w.IsServing) : w.drain.IsServing := by
  obtain ⟨hopen, screen, accepted, horderly⟩ := h
  have hwaiting : IsServing { w with pending := none } := ⟨hopen, screen, accepted, horderly.takePending⟩
  exact hwaiting.advanceUntil _ _

/-- A request is accepted, and stands in the queue if it has steps. -/
theorem IsServing.submit (h : w.IsServing) (request : List Step) :
    (w.submit request).1.IsServing ∧
      (w.submit request).1.queue.map (·.steps) =
        w.queue.map (·.steps) ++ [request].filter (· ≠ []) := by
  rw [Worker.submit]
  by_cases hempty : request = []
  · subst hempty
    exact ⟨h, (List.append_nil _).symm⟩
  · have hrunning := h.isRunning
    obtain ⟨hopen, screen, accepted, horderly⟩ := h
    have haccepts : (w.isRunning && w.isOpen) = true := by rw [hrunning, hopen, Bool.and_self]
    rw [if_neg (by simpa using hempty), if_pos haccepts]
    refine ⟨⟨hopen, screen, _, horderly.enqueue hopen request _⟩, ?_⟩
    simp [hempty]

/-- **Requests** are accepted in order. -/
theorem IsServing.submitAll (h : w.IsServing) (requests : List (List Step)) :
    (w.submitAll requests).IsServing ∧
      (w.submitAll requests).queue.map (·.steps) =
        w.queue.map (·.steps) ++ requests.filter (· ≠ []) := by
  induction requests generalizing w with
  | nil => exact ⟨h, (List.append_nil _).symm⟩
  | cons request rest ih =>
    obtain ⟨hserving, hqueue⟩ := h.submit request
    obtain ⟨hall, hrest⟩ := ih hserving
    refine ⟨hall, hrest.trans ?_⟩
    rw [hqueue, List.append_assoc, ← List.filter_append, List.singleton_append]

end Playback.Worker

namespace Session

variable {s : Session} {file : FileContent} {screen : Size} {words : List String}

/-! ## What is remembered -/

/-- What a phrase submits that is remembered, in order. -/
def rememberings (s : Session) (spoken : String) : List (List Step) :=
  ((s.submissions spoken).filter (·.isRemembered)).map (·.steps)

/-- The steps to repeat are those remembered last. -/
theorem rememberedAfter_eq (last : List Step) (made : List Submission) :
    rememberedAfter last made = (((made.filter (·.isRemembered)).map (·.steps)).getLast?).getD last := by
  induction made generalizing last with
  | nil => rfl
  | cons m rest ih =>
    show rememberedAfter (if m.isRemembered then m.steps else last) rest = _
    rw [ih]
    by_cases hm : m.isRemembered = true
    · rw [if_pos hm, List.filter_cons_of_pos hm, List.map_cons, List.getLast?_cons]
      rfl
    · rw [if_neg hm, List.filter_cons_of_neg hm]

/-- Nothing that a plain request submits is remembered. -/
theorem remembered_of_isPlain {request : Request} (h : request.isPlain = true) (last : List Step) :
    ((request.submissions last).filter (·.isRemembered)).map (·.steps) = [] := by
  cases request with
  | repeatLast times => exact absurd h Bool.noConfusion
  | playAndRemember steps => exact absurd h Bool.noConfusion
  | _ => rfl

/-- Of the functions, only the one that presses keys has steps remembered, if the words name a key. -/
theorem remembered_functionSubmissions (screen : Size) (words : List String) (last : List Step)
    (function : Option Builtin) :
    ((functionSubmissions screen words last function).filter (·.isRemembered)).map (·.steps) =
      if function = some .emitKeys ∧ keysNamed words ≠ [] then [(keysNamed words).map .tap] else [] := by
  cases function with
  | none => rfl
  | some function =>
    by_cases hkeys : function = .emitKeys
    · rw [hkeys, functionSubmissions, interpret_emitKeys]
      by_cases hnone : keysNamed words = []
      · simp [hnone, ask, Request.submissions]
      · simp [hnone, ask, Request.submissions]
    · rw [if_neg (by simp [hkeys]), functionSubmissions]
      cases hinterpret : interpret screen words function with
      | error e => rfl
      | ok i =>
        by_cases hrepeat : function = .repeatAction
        · obtain ⟨times, notices, hok⟩ := exists_interpret_repeatAction screen words
          rw [hrepeat, hok] at hinterpret
          obtain rfl := Except.ok.inj hinterpret
          simp [Request.submissions]
        · by_cases hreload : function = .reloadDefinitions
          · rw [hreload] at hinterpret
            obtain rfl := Except.ok.inj hinterpret
            rfl
          · exact remembered_of_isPlain
              (asksPlainly_interpret screen words hkeys hrepeat hreload i hinterpret) last

/-- **Two things are remembered**: the actions of a command that has some, and the keys that are named to
    the function that presses them. -/
theorem rememberings_eq (s : Session) (spoken : String) :
    s.rememberings spoken =
      match s.heard spoken with
      | none => []
      | some command =>
        (if command.actions = [] then [] else [command.actions]) ++
          if command.function = some .emitKeys ∧ keysNamed (lowerWords spoken) ≠ [] then
            [(keysNamed (lowerWords spoken)).map .tap]
          else [] := by
  rw [rememberings, submissions]
  cases s.heard spoken with
  | none => rfl
  | some command =>
    dsimp only
    rw [List.filter_append, List.map_append, remembered_functionSubmissions, ownSubmissions]
    congr 1
    by_cases hactions : command.actions = []
    · rw [if_pos hactions, if_pos (by rw [hactions]; rfl)]
      rfl
    · rw [if_neg hactions, if_neg (by simpa using hactions)]
      rfl

/-! ## Turns -/

/-- Whether a file can be loaded: it describes modes that compile. -/
def loads (file : FileContent) : Bool :=
  match readDefinitions file with
  | .error _ => false
  | .ok definition => (Tree.compile .builtin definition).1.isOk

theorem isOk_load (s : Session) (file : FileContent) : (s.load file).result.isOk = loads file := by
  rw [load, loads]
  cases readDefinitions file with
  | error e => rfl
  | ok definition =>
    dsimp only
    rw [Engine.load]
    rcases Tree.compile .builtin definition with ⟨err | tree, w⟩
    · rfl
    · rfl

/-- A load that succeeds forgets what was remembered, and one that fails does not. -/
theorem lastSteps_load (s : Session) (file : FileContent) :
    (s.load file).state.lastSteps = if loads file then [] else s.lastSteps := by
  rw [← isOk_load s file]
  rcases compiles_or_fails file with ⟨tree, w, h⟩ | ⟨err, notices, h⟩
  · rw [h.load_eq]
    rfl
  · rw [h.load_eq]
    rfl

/-- What a session goes through. -/
inductive Turn where
  | say (file : FileContent) (spoken : String)
  | load (file : FileContent)
  | reload (file : FileContent)
  | /-- The player moves. -/
    play

/-- The session after a turn. -/
def turn (s : Session) : Turn → Session
  | .say file spoken => (s.handlePhrase file spoken).state
  | .load file => (s.load file).state
  | .reload file => (s.reload file).state
  | .play => { s with worker := s.worker.advance }

/-- The session after turns in order. -/
def run (s : Session) (turns : List Turn) : Session := turns.foldl turn s

/-- The trail after a turn: what a phrase submits to be remembered is added, and a load that succeeds,
    which comes last in a phrase, empties it. -/
def trailAfter (s : Session) (trail : List (List Step)) : Turn → List (List Step)
  | .say file spoken =>
    if s.asksReload spoken && loads file then [] else trail ++ s.rememberings spoken
  | .load file => if loads file then [] else trail
  | .reload file => if loads file then [] else trail
  | .play => trail

/-- What was submitted to be remembered since the last load that succeeded. -/
def trail (s : Session) (before : List (List Step)) : List Turn → List (List Step)
  | [] => before
  | t :: rest => (s.turn t).trail (s.trailAfter before t) rest

/-- **The invariant**: the worker serves, and the last of the trail is what is to be repeated. -/
structure Recalls (s : Session) (trail : List (List Step)) : Prop where
  isServing : s.worker.IsServing
  lastSteps_eq : s.lastSteps = trail.getLast?.getD []

theorem isServing_load (h : s.worker.IsServing) (file : FileContent) :
    (s.load file).state.worker.IsServing := by
  rwa [worker_load]

/-- Reloading is loading once the player is done, and keeps what loading keeps. -/
theorem Recalls.reload {trail : List (List Step)} (h : s.Recalls trail) (file : FileContent) :
    (s.reload file).state.Recalls (if loads file then [] else trail) := by
  rw [state_reload]
  have hserving : s.drain.worker.IsServing := h.isServing.drain
  refine ⟨isServing_load hserving file, ?_⟩
  rw [lastSteps_load]
  split
  · rfl
  · exact h.lastSteps_eq

/-- Submissions add to the trail what is remembered of them. -/
theorem Recalls.submits {trail : List (List Step)} {made : List Submission} {s' : Session}
    (h : s.Recalls trail) (hsubmits : s.Submits made s') :
    s'.Recalls (trail ++ (made.filter (·.isRemembered)).map (·.steps)) where
  isServing := by
    rw [hsubmits.worker_eq]
    exact (h.isServing.submitAll _).1
  lastSteps_eq := by
    rw [hsubmits.lastSteps_eq, rememberedAfter_eq, h.lastSteps_eq, List.getLast?_append]
    cases ((made.filter (·.isRemembered)).map (·.steps)).getLast? <;> rfl

/-- **The step**: every turn keeps the invariant. -/
theorem Recalls.turn {trail : List (List Step)} (h : s.Recalls trail) (t : Turn) :
    (s.turn t).Recalls (s.trailAfter trail t) := by
  cases t with
  | say file spoken =>
    obtain ⟨s', hsubmits, hstate⟩ := s.submits_handlePhrase file spoken
    have hs' := h.submits hsubmits
    rw [Session.turn, hstate, trailAfter]
    by_cases hreload : s.asksReload spoken = true
    · rw [if_pos hreload, hreload, Bool.true_and]
      exact hs'.reload file
    · rw [if_neg hreload, if_neg (by simp [hreload])]
      exact hs'
  | load file =>
    refine ⟨isServing_load h.isServing file, ?_⟩
    rw [Session.turn, lastSteps_load, trailAfter]
    split
    · rfl
    · exact h.lastSteps_eq
  | reload file => exact h.reload file
  | play => exact ⟨h.isServing.advance, h.lastSteps_eq⟩

/-- **The run**: all turns keep it. -/
theorem Recalls.run {before : List (List Step)} (h : s.Recalls before) (turns : List Turn) :
    (s.run turns).Recalls (s.trail before turns) := by
  induction turns generalizing s before with
  | nil => exact h
  | cons t rest ih => exact ih (h.turn t)

theorem recalls_start (screen : ScreenState) : (start screen).Recalls [] :=
  ⟨Worker.isServing_start screen, rfl⟩

/-! ## Repeating -/

/-- The function that repeats makes of the number of a phrase how often to play the steps again. -/
theorem functionSubmissions_repeatAction (screen : Size) {run : List String} (last : List Step)
    (hrun : IsLastRun words run) :
    functionSubmissions screen words last (some .repeatAction) =
      List.replicate (min (decimal run) 100 - 1) ⟨last, false⟩ := by
  have hcount : min (min (decimal run) Text.maxInt64) 100 = min (decimal run) 100 := by
    rw [Text.maxInt64]
    omega
  rw [functionSubmissions, interpret, repeatAction, readLastNumber_of_isLastRun hrun]
  dsimp only [capCount, maxCount]
  rw [hcount, Request.submissions]

theorem functionSubmissions_repeatAction_of_no_digits (screen : Size) (last : List Step)
    (h : ∀ word ∈ words, isDigitWord word = false) :
    functionSubmissions screen words last (some .repeatAction) = List.replicate 0 ⟨last, false⟩ := by
  rw [functionSubmissions, interpret, repeatAction, readLastNumber_of_no_digits h]
  rfl

/-- The steps to repeat at the moment when the function of a command is run: the actions of the command,
    if it has some, have been played by then. -/
def stepsToRepeat (s : Session) (command : Command) : List Step :=
  if command.actions = [] then s.lastSteps else command.actions

theorem rememberedAfter_ownSubmissions (s : Session) (command : Command) :
    rememberedAfter s.lastSteps (ownSubmissions command) = s.stepsToRepeat command := by
  rw [ownSubmissions, stepsToRepeat]
  by_cases hactions : command.actions = []
  · rw [if_pos hactions, if_pos (by rw [hactions]; rfl)]
    rfl
  · rw [if_neg hactions, if_neg (by simpa using hactions)]
    rfl

/-- Steps that are submitted `n` more times stand in the queue `n` more times, behind the actions of the
    command, and are still what is to be repeated. -/
theorem handlePhrase_of_repeating {spoken : String} {command : Command} (n : Nat)
    (hserving : s.worker.IsServing) (file : FileContent) (hheard : s.heard spoken = some command)
    (hfunction : command.function = some .repeatAction)
    (hsubmissions : ∀ screen last, functionSubmissions screen (lowerWords spoken) last
      (some .repeatAction) = List.replicate n ⟨last, false⟩) :
    (s.handlePhrase file spoken).state.lastSteps = s.stepsToRepeat command ∧
      (s.handlePhrase file spoken).state.worker.queue.map (·.steps) =
        s.worker.queue.map (·.steps) ++
          (command.actions :: List.replicate n (s.stepsToRepeat command)).filter (· ≠ []) := by
  obtain ⟨s', hsubmits, hstate⟩ := s.submits_handlePhrase file spoken
  have hreload : s.asksReload spoken = false := by
    rw [asksReload, hheard, Option.any_some, hfunction]
    rfl
  have hmade : s.submissions spoken =
      ownSubmissions command ++ List.replicate n ⟨s.stepsToRepeat command, false⟩ := by
    rw [submissions, hheard]
    dsimp only
    rw [hfunction, hsubmissions, rememberedAfter_ownSubmissions]
  rw [hreload, if_neg Bool.false_ne_true] at hstate
  rw [hmade] at hsubmits
  rw [hstate]
  constructor
  · rw [hsubmits.lastSteps_eq, rememberedAfter_append, rememberedAfter_replicate,
      rememberedAfter_ownSubmissions]
  · rw [hsubmits.worker_eq, (hserving.submitAll _).2, List.map_append, List.map_replicate,
      List.filter_append, ← List.singleton_append, List.filter_append, ownSubmissions]
    by_cases hactions : command.actions = []
    · simp [hactions]
    · simp [hactions]

/-- **What is remembered and what is repeated.**  After any turns of a new session:

    * the steps to repeat are those remembered last since the last load that succeeded, or none;
    * a phrase has remembered the actions of its command and then the keys that it names, if there are
      some, and nothing else;
    * all that a phrase submits is accepted and queued in order, before the reload that it may ask for;
    * a phrase whose command repeats submits the steps to repeat at that moment, behind the actions of the
      command, once less than its last number says but at most 99 times, and not at all without a
      number, and these steps are still to be repeated afterwards. -/
theorem remembered_and_repeated (screen : ScreenState) (turns : List Turn) :
    let s := (start screen).run turns
    s.lastSteps = ((start screen).trail [] turns).getLast?.getD [] ∧
      (∀ spoken, s.rememberings spoken =
        match s.heard spoken with
        | none => []
        | some command =>
          (if command.actions = [] then [] else [command.actions]) ++
            if command.function = some .emitKeys ∧ keysNamed (lowerWords spoken) ≠ [] then
              [(keysNamed (lowerWords spoken)).map .tap]
            else []) ∧
      (∀ file spoken,
        let made := (s.submissions spoken).map (·.steps)
        let handed := s.worker.submitAll made
        handed.queue.map (·.steps) = s.worker.queue.map (·.steps) ++ made.filter (· ≠ []) ∧
          (s.handlePhrase file spoken).state.worker =
            if s.asksReload spoken then handed.drain else handed) ∧
      ∀ file spoken command, s.heard spoken = some command →
        command.function = some .repeatAction →
        let steps := if command.actions = [] then s.lastSteps else command.actions
        let after := (s.handlePhrase file spoken).state
        let queued (n : Nat) := after.worker.queue.map (·.steps) =
          s.worker.queue.map (·.steps) ++
            (command.actions :: List.replicate n steps).filter (· ≠ [])
        after.lastSteps = steps ∧
          (∀ run, IsLastRun (lowerWords spoken) run → queued (min (decimal run) 100 - 1)) ∧
          ((∀ word ∈ lowerWords spoken, isDigitWord word = false) → queued 0) := by
  have hrecalls := (recalls_start screen).run turns
  have hserving := hrecalls.isServing
  refine ⟨hrecalls.lastSteps_eq, rememberings_eq _, ?_, ?_⟩
  · intro file spoken
    exact ⟨(hserving.submitAll _).2, worker_handlePhrase _ file spoken⟩
  · intro file spoken command hheard hfunction
    have hnumber : ∀ run, IsLastRun (lowerWords spoken) run → _ := fun run hrun =>
      handlePhrase_of_repeating _ hserving file hheard hfunction fun screen last =>
        functionSubmissions_repeatAction screen last hrun
    have hnone : (∀ word ∈ lowerWords spoken, isDigitWord word = false) → _ := fun h =>
      handlePhrase_of_repeating 0 hserving file hheard hfunction fun screen last =>
        functionSubmissions_repeatAction_of_no_digits screen last h
    refine ⟨?_, fun run hrun => (hnumber run hrun).2, fun h => (hnone h).2⟩
    rcases exists_isLastRun (lowerWords spoken) with h | ⟨run, hrun⟩
    · exact (hnone h).1
    · exact (hnumber run hrun).1

/-- A number of twenty digits repeats as often as is allowed. -/
example :
    let definition : ModeDefinition := ⟨[], [⟨none, "go", some "Enter", none⟩,
      ⟨none, "repeat $dictate", none, some "repeat_action"⟩], []⟩
    let s : Session := { start ⟨⟨0, 0⟩, ⟨1920, 1080⟩⟩ with engine := (Engine.empty.load definition).state }
    let after := s.run [.say none "go", .say none
      ("repeat " ++ " ".intercalate (List.replicate 20 "nine"))]
    after.worker.queue.map (·.steps) = List.replicate 100 [.tap .enter] ∧
      after.lastSteps = [.tap .enter] := by
  decide +kernel

end Session

end SpokenCommand
