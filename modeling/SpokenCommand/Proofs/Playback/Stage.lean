import SpokenCommand.Proofs.Playback.Orderly
import SpokenCommand.Proofs.Session.Reload
/-!
The dispatcher and the player beside each other.

A STAGE is a session whose player moves on its own.  The dispatcher submits requests, reads the screen
that is shown, and calls for one of three things that wait for playback: draining, reloading, shutting
down.  An ACTION is one small step of the player, or one thing that the dispatcher does between two
waits, so that a list of actions is one of all the ways in which the two can interleave.  What is not
possible at the moment, such as a submission during a wait, does nothing.

1. **What can happen** (`Happens`): each action as one of the things that it can do, with the condition
   under which it does it.  Later proofs split by these and never look into `Stage.act`.

2. **The crux is what a wait is for.**  The dispatcher waits for one ticket.  The invariant (`Sound`) is
   that this ticket, or the one kept for the next wait, covers all accepted requests: it is that of the
   last of them, and if there is none then all are finished.  Every action keeps this
   (`Happens.sound`), and so does every run (`Sound.run`).
-/

namespace SpokenCommand

open Playback Script

/-- Why the dispatcher waits for playback. -/
inductive Purpose where
  | drain
  | reload (file : FileContent)
  | shutdown

/-- What the dispatcher is doing. -/
inductive Duty where
  | free
  | /-- Waiting until a request is done. -/
    waiting (ticket : Option Ticket) (purpose : Purpose)
  | /-- Waiting until the player has stopped. -/
    joining

/-- A session whose player moves on its own, with the requests accepted so far, which nothing
    reads. -/
structure Stage where
  session : Session
  duty : Duty
  accepted : List (List Step)

/-- A small step of the player or of the dispatcher. -/
inductive Action where
  | /-- The player moves. -/
    play
  | submit (request : List Step)
  | readScreen
  | call (purpose : Purpose)
  | /-- The dispatcher goes on if what it waits for has come. -/
    resume

/-- What the dispatcher gets in return. -/
inductive Answer where
  | submitted (result : Except Refusal Unit)
  | screen (shown : ScreenState)
  | returned (purpose : Purpose)

namespace Stage

/-- The worker of the session. -/
def worker (s : Stage) : Worker := s.session.worker

/-- What was played so far. -/
def played (s : Stage) : List Primitive := s.worker.played.toList

/-- A stage on which nothing has happened. -/
def start (session : Session) (screen : ScreenState) : Stage :=
  ⟨{ session with worker := .start screen }, .free, []⟩

/-- The stage with another worker. -/
def withWorker (s : Stage) (worker : Worker) : Stage :=
  { s with session := { s.session with worker } }

/-- Carry out an action.  The answer is what the dispatcher gets, if it gets something now. -/
def act (s : Stage) : Action → Stage × Option Answer
  | .play => (s.withWorker s.worker.advance, none)
  | .submit request =>
    match s.duty with
    | .free =>
      let (worker, result) := s.worker.submit request
      let accepted := if request.isEmpty || !result.isOk then s.accepted else s.accepted ++ [request]
      ({ s.withWorker worker with accepted }, some (.submitted result))
    | _ => (s, none)
  | .readScreen =>
    match s.duty with
    | .free => (s, some (.screen s.worker.shown))
    | _ => (s, none)
  | .call purpose =>
    match s.duty with
    | .free =>
      let (ticket, worker) := s.worker.takePending
      ({ s.withWorker worker with duty := .waiting ticket purpose }, none)
    | _ => (s, none)
  | .resume =>
    match s.duty with
    | .free => (s, none)
    | .waiting ticket purpose =>
      if s.worker.isSettled ticket then
        match purpose with
        | .drain => ({ s with duty := .free }, some (.returned .drain))
        | .reload file =>
          ({ s with session := (s.session.load file).state, duty := .free },
            some (.returned (.reload file)))
        | .shutdown => ({ s.withWorker s.worker.close with duty := .joining }, none)
      else (s, none)
    | .joining =>
      if s.worker.isStopped then ({ s with duty := .free }, some (.returned .shutdown))
      else (s, none)

/-- Carry out actions in order. -/
def run (s : Stage) (actions : List Action) : Stage := actions.foldl (fun s a => (s.act a).1) s

theorem run_cons (s : Stage) (action : Action) (rest : List Action) :
    s.run (action :: rest) = (s.act action).1.run rest := rfl

theorem run_append (s : Stage) (actions actions' : List Action) :
    s.run (actions ++ actions') = (s.run actions).run actions' := List.foldl_append

/-! ## What can happen -/

/-- What an action does, and the answer it gives. -/
inductive Happens (s : Stage) : Action → Stage → Option Answer → Prop where
  | /-- The player moves. -/
    moved : Happens s .play (s.withWorker s.worker.advance) none
  | /-- The action is not possible now, or the dispatcher waits on. -/
    nothing {action : Action} : Happens s action s none
  | /-- A submission without steps is done at once. -/
    empty (hfree : s.duty = .free) : Happens s (.submit []) s (some (.submitted (.ok ())))
  | accepted {request : List Step} (hfree : s.duty = .free) (hne : request ≠ [])
      (hrunning : s.worker.isRunning = true) (hopen : s.worker.isOpen = true) :
      Happens s (.submit request)
        { s.withWorker
            { s.worker with
              queue := s.worker.queue ++ [⟨s.worker.nextTicket, request⟩]
              nextTicket := s.worker.nextTicket + 1
              pending := some s.worker.nextTicket } with
          accepted := s.accepted ++ [request] }
        (some (.submitted (.ok ())))
  | refused {request : List Step} (hne : request ≠ []) :
      Happens s (.submit request) s (some (.submitted (.error .stopped)))
  | read : Happens s .readScreen s (some (.screen s.worker.shown))
  | called (purpose : Purpose) (hfree : s.duty = .free) :
      Happens s (.call purpose)
        { s.withWorker { s.worker with pending := none } with
          duty := .waiting s.worker.pending purpose }
        none
  | drained {ticket : Option Ticket} (hduty : s.duty = .waiting ticket .drain)
      (hsettled : s.worker.isSettled ticket = true) :
      Happens s .resume { s with duty := .free } (some (.returned .drain))
  | reloaded {ticket : Option Ticket} {file : FileContent}
      (hduty : s.duty = .waiting ticket (.reload file))
      (hsettled : s.worker.isSettled ticket = true) :
      Happens s .resume { s with session := (s.session.load file).state, duty := .free }
        (some (.returned (.reload file)))
  | closed {ticket : Option Ticket} (hduty : s.duty = .waiting ticket .shutdown)
      (hsettled : s.worker.isSettled ticket = true) :
      Happens s .resume { s.withWorker s.worker.close with duty := .joining } none
  | joined (hduty : s.duty = .joining) (hstopped : s.worker.isStopped = true) :
      Happens s .resume { s with duty := .free } (some (.returned .shutdown))

/-- Every action does one of these things. -/
theorem act_happens (s : Stage) (action : Action) :
    s.Happens action (s.act action).1 (s.act action).2 := by
  obtain ⟨session, duty, accepted⟩ := s
  cases action with
  | play => exact .moved
  | submit request =>
    cases duty with
    | free =>
      cases request with
      | nil => exact .empty rfl
      | cons step rest =>
        by_cases hopen : session.worker.isRunning && session.worker.isOpen
        · have hboth := hopen
          rw [Bool.and_eq_true] at hboth
          simp only [act, worker, Worker.submit, hopen]
          exact .accepted rfl (List.cons_ne_nil _ _) hboth.1 hboth.2
        · simp only [act, worker, Worker.submit, hopen]
          exact .refused (List.cons_ne_nil _ _)
    | waiting ticket purpose => exact .nothing
    | joining => exact .nothing
  | readScreen =>
    cases duty with
    | free => exact .read
    | waiting ticket purpose => exact .nothing
    | joining => exact .nothing
  | call purpose =>
    cases duty with
    | free => exact .called purpose rfl
    | waiting ticket purpose => exact .nothing
    | joining => exact .nothing
  | resume =>
    cases duty with
    | free => exact .nothing
    | waiting ticket purpose =>
      by_cases hsettled : session.worker.isSettled ticket = true
      · simp only [act, worker, hsettled, if_true]
        cases purpose with
        | drain => exact .drained rfl hsettled
        | reload file => exact .reloaded rfl hsettled
        | shutdown => exact .closed rfl hsettled
      · simp only [act, worker, hsettled]
        exact .nothing
    | joining =>
      by_cases hstopped : session.worker.isStopped = true
      · simp only [act, worker, hstopped, if_true]
        exact .joined rfl hstopped
      · simp only [act, worker, hstopped]
        exact .nothing

/-! ## What a wait is for -/

/-- The ticket that the dispatcher waits for, or would wait for. -/
def awaited (s : Stage) : Option Ticket :=
  match s.duty with
  | .free => s.worker.pending
  | .waiting ticket _ => ticket
  | .joining => none

/-- The player is orderly, and waiting covers all accepted requests. -/
structure Sound (screen : ScreenState) (s : Stage) : Prop where
  orderly : s.worker.Orderly screen s.accepted
  covers : s.worker.Covers s.accepted s.awaited
  /-- A ticket that is waited for is not kept as well. -/
  pending_eq : s.duty ≠ .free → s.worker.pending = none

variable {screen : ScreenState} {s s' : Stage} {action : Action} {answer : Option Answer}

theorem sound_start (session : Session) (screen : ScreenState) :
    (start session screen).Sound screen where
  orderly := Worker.orderly_start screen
  covers := Nat.le_refl 0
  pending_eq := fun hduty => absurd rfl hduty

theorem awaited_of_free (hfree : s.duty = .free) : s.awaited = s.worker.pending := by
  rw [awaited, hfree]

theorem awaited_of_waiting {ticket : Option Ticket} {purpose : Purpose}
    (hduty : s.duty = .waiting ticket purpose) : s.awaited = ticket := by
  rw [awaited, hduty]

/-- What a wait covers is not changed by a move of the player. -/
theorem awaited_moved (s : Stage) : (s.withWorker s.worker.advance).awaited = s.awaited := by
  show (match s.duty with
    | .free => s.worker.advance.pending
    | .waiting ticket _ => ticket
    | .joining => none) = s.awaited
  rw [s.worker.advance_eq_submitter.2]
  rfl

/-- When the dispatcher gets what it waited for, all requests are finished, and it may go on. -/
theorem Sound.freed (h : s.Sound screen) (hduty : s.duty ≠ .free)
    (hall : s.accepted.length ≤ s.worker.finished) {session : Session}
    (hworker : session.worker = s.worker) :
    Sound screen { s with session, duty := .free } where
  orderly := by
    show session.worker.Orderly screen s.accepted
    rw [hworker]
    exact h.orderly
  covers := by
    show session.worker.Covers s.accepted session.worker.pending
    rw [hworker, h.pending_eq hduty]
    exact hall
  pending_eq := fun hne => absurd rfl hne

/-- When a wait for a ticket is over, all requests are finished. -/
theorem Sound.finished_of_waiting (h : s.Sound screen) {ticket : Option Ticket} {purpose : Purpose}
    (hduty : s.duty = .waiting ticket purpose) (hsettled : s.worker.isSettled ticket = true) :
    s.accepted.length ≤ s.worker.finished := by
  have hcovers := h.covers
  rw [awaited_of_waiting hduty] at hcovers
  exact h.orderly.finished_of_isSettled hcovers hsettled

/-- **The step**: every action keeps a stage sound. -/
theorem Happens.sound (hact : s.Happens action s' answer) (h : s.Sound screen) :
    s'.Sound screen := by
  cases hact with
  | moved =>
    refine ⟨h.orderly.advance, ?_, ?_⟩
    · rw [awaited_moved]
      exact h.covers.advance
    · intro hduty
      exact (s.worker.advance_eq_submitter.2).trans (h.pending_eq hduty)
  | nothing => exact h
  | empty hfree => exact h
  | accepted hfree hne hrunning hopen =>
    refine ⟨h.orderly.enqueue hopen _ _, ?_, fun hduty => absurd hfree hduty⟩
    -- The ticket that is kept now is that of the last request, whatever was kept before.
    rw [awaited_of_free]
    · show (s.accepted ++ [_]).length = s.worker.nextTicket + 1
      rw [List.length_append, List.length_singleton, h.orderly.nextTicket_eq]
    · exact hfree
  | refused hne => exact h
  | read => exact h
  | called purpose hfree =>
    -- The ticket goes from where it is kept to where it is waited for.
    have hcovers := h.covers
    rw [awaited_of_free hfree] at hcovers
    exact ⟨h.orderly.takePending, hcovers.takePending, fun _ => rfl⟩
  | drained hduty hsettled =>
    exact h.freed (by simp [hduty]) (h.finished_of_waiting hduty hsettled) rfl
  | reloaded hduty hsettled =>
    exact h.freed (by simp [hduty]) (h.finished_of_waiting hduty hsettled) (Session.worker_load _ _)
  | closed hduty hsettled =>
    have hall := h.finished_of_waiting hduty hsettled
    have hpending := h.pending_eq (by simp [hduty])
    exact ⟨h.orderly.close, hall, fun _ => hpending⟩
  | joined hduty hstopped =>
    exact h.freed (by simp [hduty]) (h.orderly.finished_of_isStopped hstopped) rfl

theorem Sound.act (h : s.Sound screen) (action : Action) : (s.act action).1.Sound screen :=
  (s.act_happens action).sound h

/-- **The run**: whatever the interleaving, the stage stays sound. -/
theorem Sound.run (h : s.Sound screen) (actions : List Action) : (s.run actions).Sound screen := by
  induction actions generalizing s with
  | nil => exact h
  | cons action rest ih => exact ih (h.act action)

end Stage

end SpokenCommand
