import SpokenCommand.Playback.Replay
/-!
The playback worker: a queue of requests and the player that works it off.

Requests are played strictly one after another and each of them completely.  The player moves in
SMALL STEPS, which is the grain at which whoever submits requests runs beside it: it takes a request
from the queue, plays its steps one by one, lets go of the keys still held one by one, shows the new
state of the screen, and signals that the request is done.  When the queue is empty and CLOSED, the
player says that it runs no more, and stops.

An accepted request carries a TICKET, by which it is signalled to be done.  Whoever submits keeps one
ticket only, that of the request accepted last, and `Worker.drain` waits for this one signal.  That
nothing is left to play when it comes is due to the order of the queue, and to the player's signalling
a request after everything else about it.

`drain` and `shutdown` let the player move until what they wait for has come.  The steps left are
bounded by `effort`, which every step of the player lowers until it is at rest.
-/

namespace SpokenCommand.Playback

open Script

/-- What a request is called by when it is done. -/
abbrev Ticket := Nat

/-- A request that was accepted. -/
structure Job where
  ticket : Ticket
  steps : List Step

/-- What the player is doing. -/
inductive Activity where
  | /-- Waiting for a request. -/
    idle
  | /-- Playing the steps left of a request, which holds some keys down. -/
    playing (ticket : Ticket) (rest : List Step) (held : HeldKeys)
  | /-- Letting go of keys at the end of a request. -/
    releasing (ticket : Ticket) (keys : List Key)
  | /-- About to show the state of the screen after a request. -/
    showing (ticket : Ticket)
  | /-- About to signal that a request is done. -/
    signalling (ticket : Ticket)
  | /-- About to say that no more requests are accepted. -/
    stopping
  | stopped

/-- The worker. -/
structure Worker where
  /-- Whether the player says that requests are accepted. -/
  isRunning : Bool
  /-- Whether the queue takes requests. -/
  isOpen : Bool
  /-- The requests that were accepted and not yet taken up, first come first. -/
  queue : List Job
  activity : Activity
  /-- The machine's own screen. -/
  device : ScreenState
  /-- The screen as it was after the last finished request. -/
  shown : ScreenState
  /-- The requests that were signalled to be done. -/
  signalled : List Ticket
  /-- The ticket of the next request. -/
  nextTicket : Ticket
  /-- The request accepted last, unless it was waited for. -/
  pending : Option Ticket
  /-- What was played since it was last asked for. -/
  played : Array Primitive

/-- Why a request is refused. -/
inductive Refusal where
  | stopped
deriving DecidableEq, Repr

/-- The wording of a refusal. -/
def Refusal.message : Refusal → String
  | stopped => "playback thread is not running"

/-- Whether nothing follows an activity any more. -/
def Activity.isStopped : Activity → Bool
  | stopped => true
  | _ => false

/-- How many small steps an activity takes at most until the player is at rest. -/
def Activity.effort : Activity → Nat
  | idle => 2
  | playing _ rest held => 2 * rest.length + held.keys.length + 6
  | releasing _ keys => keys.length + 5
  | showing _ => 4
  | signalling _ => 3
  | stopping => 1
  | stopped => 0

namespace Worker

/-- A worker that has just started. -/
def start (screen : ScreenState) : Worker :=
  { isRunning := true, isOpen := true, queue := [], activity := .idle, device := screen,
    shown := screen, signalled := [], nextTicket := 0, pending := none, played := #[] }

/-! ## The player -/

/-- Do one primitive. -/
def perform (w : Worker) (p : Primitive) : Worker :=
  { w with
    device := { w.device with cursor := p.cursorAfter w.device.cursor }
    played := w.played.push p }

/-- The next small step of the player. -/
def advance (w : Worker) : Worker :=
  match w.activity with
  | .idle =>
    match w.queue with
    | [] => if w.isOpen then w else { w with activity := .stopping }
    | job :: rest => { w with queue := rest, activity := .playing job.ticket job.steps .empty }
  | .playing ticket [] held => { w with activity := .releasing ticket held.keys }
  | .playing ticket (step :: rest) held =>
    (primitives w.device.cursor step).foldl perform
      { w with activity := .playing ticket rest (heldAfter held step) }
  | .releasing ticket [] => { w with activity := .showing ticket }
  | .releasing ticket (key :: rest) =>
    { w with activity := .releasing ticket rest }.perform (.keyUp key)
  | .showing ticket => { w with shown := w.device, activity := .signalling ticket }
  | .signalling ticket => { w with signalled := ticket :: w.signalled, activity := .idle }
  | .stopping => { w with isRunning := false, activity := .stopped }
  | .stopped => w

/-- Whether the player has stopped. -/
def isStopped (w : Worker) : Bool := w.activity.isStopped

theorem isStopped_iff {w : Worker} : w.isStopped = true ↔ w.activity = .stopped := by
  cases h : w.activity <;> simp [isStopped, Activity.isStopped, h]

/-- How many small steps the requests of a queue take at most. -/
def queueEffort : List Job → Nat
  | [] => 0
  | job :: rest => 2 * job.steps.length + 5 + queueEffort rest

/-- How many small steps are left at most. -/
def effort (w : Worker) : Nat := w.activity.effort + queueEffort w.queue

/-- The worker after small steps until a condition holds, and after as many as are allowed if it
    never does. -/
def advanceUntil (holds : Worker → Bool) (w : Worker) : (allowed : Nat) → Worker
  | 0 => w
  | allowed + 1 => if holds w then w else w.advance.advanceUntil holds allowed

/-! ## Whoever submits -/

/-- Queue a request behind those already accepted.  Nothing is done for a request without steps. -/
def submit (w : Worker) (request : List Step) : Worker × Except Refusal Unit :=
  if request.isEmpty then (w, .ok ())
  else if w.isRunning && w.isOpen then
    ({ w with
        queue := w.queue ++ [⟨w.nextTicket, request⟩]
        nextTicket := w.nextTicket + 1
        pending := some w.nextTicket }, .ok ())
  else (w, .error .stopped)

/-- Take over the ticket to wait for. -/
def takePending (w : Worker) : Option Ticket × Worker := (w.pending, { w with pending := none })

/-- Whether a wait is over: there is no ticket to wait for, or it was signalled, or it never will
    be because the player has stopped. -/
def isSettled (w : Worker) (ticket : Option Ticket) : Bool :=
  ticket.all fun t => w.signalled.contains t || w.isStopped

/-- Wait until the request that was accepted last is done. -/
def drain (w : Worker) : Worker :=
  let (ticket, w) := w.takePending
  w.advanceUntil (·.isSettled ticket) w.effort

/-- Let the queue take no more requests. -/
def close (w : Worker) : Worker := { w with isOpen := false }

/-- Wait until every accepted request is done and the player has stopped. -/
def shutdown (w : Worker) : Worker :=
  let w := w.drain.close
  w.advanceUntil isStopped w.effort

/-- What was played since this was last asked for. -/
def takePlayed (w : Worker) : List Primitive × Worker := (w.played.toList, { w with played := #[] })

/-! ## Waiting ends -/

/-- Whether the player has nothing to do. -/
def IsAtRest (w : Worker) : Prop :=
  w.activity = .stopped ∨ w.activity = .idle ∧ w.queue = [] ∧ w.isOpen = true

/-- A primitive changes the machine only. -/
theorem foldl_perform (ps : List Primitive) (w : Worker) :
    ps.foldl perform w =
      { w with
        device := { w.device with cursor := ps.foldl Primitive.cursorAfter w.device.cursor }
        played := w.played ++ ps } := by
  induction ps generalizing w with
  | nil => simp
  | cons p rest ih => simp [ih, perform, Primitive.cursorAfter]

/-- A step of a script holds at most one more key. -/
theorem length_heldAfter_le (held : HeldKeys) (step : Step) :
    (heldAfter held step).keys.length ≤ held.keys.length + 1 := by
  unfold heldAfter
  split
  · exact length_insertKey_le _ _
  · exact Nat.le_succ_of_le (List.length_filter_le _ _)
  · exact Nat.le_succ _

/-- Every small step of a player that is not at rest lowers the effort that is left. -/
theorem effort_advance_lt {w : Worker} (h : ¬ w.IsAtRest) : w.advance.effort < w.effort := by
  unfold advance
  split
  · rename_i ha
    split
    · rename_i hq
      split
      · rename_i hopen; exact absurd (Or.inr ⟨ha, hq, hopen⟩) h
      · simp only [effort, ha, Activity.effort]; omega
    · rename_i hq
      simp only [effort, ha, hq, Activity.effort, queueEffort, HeldKeys.empty, List.length_nil]
      omega
  · rename_i ha
    simp only [effort, ha, Activity.effort, List.length_nil]
    omega
  · rename_i step rest held ha
    have hheld := length_heldAfter_le held step
    simp only [foldl_perform, effort, ha, Activity.effort, List.length_cons]
    omega
  · rename_i ha
    simp only [effort, ha, Activity.effort, List.length_nil]
    omega
  · rename_i ha
    simp only [effort, perform, ha, Activity.effort, List.length_cons]
    omega
  · rename_i ha
    simp only [effort, ha, Activity.effort]
    omega
  · rename_i ha
    simp only [effort, ha, Activity.effort]
    omega
  · rename_i ha
    simp only [effort, ha, Activity.effort]
    omega
  · rename_i ha
    exact absurd (Or.inl ha) h

/-- A player at rest stays as it is. -/
theorem advance_of_isAtRest {w : Worker} (h : w.IsAtRest) : w.advance = w := by
  rcases h with ha | ⟨ha, hq, hopen⟩
  · simp only [advance, ha]
  · simp only [advance, ha, hq, hopen, if_true]

theorem advanceUntil_of_isAtRest {w : Worker} (h : w.IsAtRest) (holds : Worker → Bool) (n : Nat) :
    w.advanceUntil holds n = w := by
  induction n with
  | zero => rfl
  | succ n ih => rw [advanceUntil, advance_of_isAtRest h, ih, ite_self]

/-- Moving for long enough either meets the condition or brings the player to rest. -/
theorem holds_or_isAtRest_advanceUntil {holds : Worker → Bool} {w : Worker} {n : Nat}
    (h : w.effort ≤ n) :
    holds (w.advanceUntil holds n) = true ∨ (w.advanceUntil holds n).IsAtRest := by
  induction n generalizing w with
  | zero =>
    rcases Classical.em w.IsAtRest with hrest | hbusy
    · exact Or.inr hrest
    · have := effort_advance_lt hbusy
      omega
  | succ n ih =>
    rcases Classical.em w.IsAtRest with hrest | hbusy
    · rw [advanceUntil_of_isAtRest hrest]
      exact Or.inr hrest
    · rw [advanceUntil]
      split
      · rename_i hholds
        exact Or.inl hholds
      · have := effort_advance_lt hbusy
        exact ih (by omega)

end Worker

end SpokenCommand.Playback
