import SpokenCommand.Playback.Worker
import SpokenCommand.Proofs.Playback.Trace
/-!
What every state of the player keeps, beside the requests accepted so far.

The player is somewhere in the list of accepted requests: some are FINISHED, at most one more is TAKEN,
and the others stand in the queue.

1. **The crux** is the law that what was played, together with what the activity still has ahead of
   it, makes up the replays of the requests taken (`Orderly.played_ahead`).  A small step moves
   primitives from one side to the other, and taking a request adds its replay to both sides.

2. **The order of signals.**  Requests are taken in the order of their tickets, and one is signalled
   when it was played and shown.  The tickets signalled are therefore those below the number finished,
   so that the signal of the request accepted last comes when all are finished
   (`Orderly.finished_of_isSettled`).

3. **Steps.**  Both hold of a worker that starts, and every step of the player and every accepted
   request keeps them.
-/

namespace SpokenCommand.Playback

open Script

/-- The request that an activity is about. -/
def Activity.ticket? : Activity → Option Ticket
  | playing ticket _ _ => some ticket
  | releasing ticket _ => some ticket
  | showing ticket => some ticket
  | signalling ticket => some ticket
  | _ => none

/-- What an activity is still going to play. -/
def Activity.ahead (cursor : Point) : Activity → List Primitive
  | playing _ rest held => replay cursor held rest
  | releasing _ keys => keys.map .keyUp
  | _ => []

/-- How many requests were shown that are not signalled yet. -/
def Activity.unsignalled : Activity → Nat
  | signalling _ => 1
  | _ => 0

theorem Activity.isStopped_of_ticket? {a : Activity} {t : Ticket} (h : a.ticket? = some t) :
    a.isStopped = false := by
  cases a <;> first | rfl | exact absurd h.symm (Option.some_ne_none t)

theorem Activity.ahead_of_ticket?_eq_none {a : Activity} (h : a.ticket? = none) (cursor : Point) :
    a.ahead cursor = [] := by
  cases a <;> first | rfl | exact absurd h (Option.some_ne_none _)

/-- Requests under consecutive tickets. -/
def jobsFrom (ticket : Ticket) (requests : List (List Step)) : List Job :=
  requests.mapIdx fun i request => ⟨ticket + i, request⟩

theorem jobsFrom_cons (ticket : Ticket) (request : List Step) (rest : List (List Step)) :
    jobsFrom ticket (request :: rest) = ⟨ticket, request⟩ :: jobsFrom (ticket + 1) rest := by
  rw [jobsFrom, List.mapIdx_cons, jobsFrom]
  simp only [Nat.add_zero, Nat.add_assoc, Nat.add_comm 1]

theorem jobsFrom_concat (ticket : Ticket) (requests : List (List Step)) (request : List Step) :
    jobsFrom ticket (requests ++ [request]) =
      jobsFrom ticket requests ++ [⟨ticket + requests.length, request⟩] :=
  List.mapIdx_concat

/-- The job in front of those left is that of the request in its place. -/
theorem of_cons_eq_jobsFrom_drop {job : Job} {rest : List Job} {n : Nat}
    {requests : List (List Step)} (h : job :: rest = jobsFrom n (requests.drop n)) :
    ∃ request, requests[n]? = some request ∧ job = ⟨n, request⟩ ∧
      rest = jobsFrom (n + 1) (requests.drop (n + 1)) := by
  rcases hdrop : requests.drop n with _ | ⟨request, tail⟩
  · rw [hdrop] at h
    exact absurd h (List.cons_ne_nil _ _)
  · rw [hdrop, jobsFrom_cons] at h
    obtain ⟨hjob, hrest⟩ := List.cons.inj h
    refine ⟨request, ?_, hjob, ?_⟩
    · rw [← List.head?_drop, hdrop, List.head?_cons]
    · rw [hrest, ← List.drop_drop, hdrop, List.drop_one, List.tail_cons]

/-- The screen after requests are played one after another. -/
def screenAfter (screen : ScreenState) (requests : List (List Step)) : ScreenState :=
  ⟨(replayAll screen.cursor requests).foldl Primitive.cursorAfter screen.cursor, screen.size⟩

namespace Worker

/-- How many requests are done. -/
def finished (w : Worker) : Nat := w.signalled.length

/-- How many requests were taken from the queue. -/
def taken (w : Worker) : Nat := w.finished + w.activity.ticket?.toList.length

/-- How many requests the screen that is shown comes after. -/
def shownCount (w : Worker) : Nat := w.finished + w.activity.unsignalled

/-- The worker goes through the accepted requests in order, from a screen on. -/
structure Orderly (screen : ScreenState) (accepted : List (List Step)) (w : Worker) : Prop where
  nextTicket_eq : w.nextTicket = accepted.length
  signalled_eq : w.signalled = (List.range w.finished).reverse
  ticket_eq : ∀ t ∈ w.activity.ticket?, t = w.finished
  queue_eq : w.queue = jobsFrom w.taken (accepted.drop w.taken)
  taken_le : w.taken ≤ accepted.length
  /-- What was played and what is ahead are the replays of the requests taken. -/
  played_ahead : w.played.toList ++ w.activity.ahead w.device.cursor =
    replayAll screen.cursor (accepted.take w.taken)
  finished_prefix : replayAll screen.cursor (accepted.take w.finished) <+: w.played.toList
  device_eq : w.device =
    ⟨w.played.toList.foldl Primitive.cursorAfter screen.cursor, screen.size⟩
  shown_eq : w.shown = screenAfter screen (accepted.take w.shownCount)
  isRunning_eq : w.isRunning = !w.activity.isStopped
  /-- The player stops only when the queue is closed and empty. -/
  closed : w.activity = .stopping ∨ w.activity = .stopped → w.isOpen = false ∧ w.queue = []

variable {screen : ScreenState} {accepted : List (List Step)} {w : Worker}

theorem shownCount_le_taken (w : Worker) : w.shownCount ≤ w.taken := by
  refine Nat.add_le_add_left ?_ _
  cases w.activity <;> simp [Activity.unsignalled, Activity.ticket?]

theorem finished_le_shownCount (w : Worker) : w.finished ≤ w.shownCount := Nat.le_add_right _ _

theorem orderly_start (screen : ScreenState) : (start screen).Orderly screen [] where
  nextTicket_eq := rfl
  signalled_eq := rfl
  ticket_eq := by simp [start, Activity.ticket?]
  queue_eq := rfl
  taken_le := Nat.le_refl _
  played_ahead := rfl
  finished_prefix := List.nil_prefix
  device_eq := rfl
  shown_eq := rfl
  isRunning_eq := rfl
  closed := by simp [start]

/-- With nothing ahead, all that was taken was played. -/
theorem Orderly.played_eq (h : w.Orderly screen accepted)
    (hahead : w.activity.ahead w.device.cursor = []) :
    w.played.toList = replayAll screen.cursor (accepted.take w.taken) := by
  have hplayed := h.played_ahead
  rwa [hahead, List.append_nil] at hplayed

/-- Playing some of what is ahead of a request keeps the order. -/
theorem Orderly.plays (h : w.Orderly screen accepted) {a : Activity} {t : Ticket}
    (hw : w.activity.ticket? = some t) (ha : a.ticket? = some t)
    (hunsignalled : a.unsignalled = w.activity.unsignalled) (ps : List Primitive)
    (hahead : w.activity.ahead w.device.cursor =
      ps ++ a.ahead (ps.foldl Primitive.cursorAfter w.device.cursor)) :
    (ps.foldl perform { w with activity := a }).Orderly screen accepted := by
  have htaken : w.finished + a.ticket?.toList.length = w.taken := by rw [taken, hw, ha]
  have hcount : w.finished + a.unsignalled = w.shownCount := by rw [shownCount, hunsignalled]
  have hcursor : w.device.cursor = w.played.toList.foldl Primitive.cursorAfter screen.cursor :=
    congrArg ScreenState.cursor h.device_eq
  have hsize : w.device.size = screen.size := by rw [h.device_eq]
  rw [foldl_perform]
  constructor
  case nextTicket_eq => exact h.nextTicket_eq
  case signalled_eq => exact h.signalled_eq
  case ticket_eq =>
    show ∀ u ∈ a.ticket?, u = w.finished
    rw [ha, ← hw]
    exact h.ticket_eq
  case queue_eq =>
    show w.queue = jobsFrom (w.finished + a.ticket?.toList.length)
      (accepted.drop (w.finished + a.ticket?.toList.length))
    rw [htaken]
    exact h.queue_eq
  case taken_le =>
    show w.finished + a.ticket?.toList.length ≤ accepted.length
    rw [htaken]
    exact h.taken_le
  case played_ahead =>
    show (w.played ++ ps).toList ++ a.ahead (ps.foldl Primitive.cursorAfter w.device.cursor) =
      replayAll screen.cursor (accepted.take (w.finished + a.ticket?.toList.length))
    rw [htaken, ← h.played_ahead, hahead, Array.toList_appendList, List.append_assoc]
  case finished_prefix =>
    show replayAll screen.cursor (accepted.take w.finished) <+: (w.played ++ ps).toList
    rw [Array.toList_appendList]
    exact h.finished_prefix.trans (List.prefix_append _ _)
  case device_eq =>
    show ScreenState.mk (ps.foldl Primitive.cursorAfter w.device.cursor) w.device.size =
      ⟨(w.played ++ ps).toList.foldl Primitive.cursorAfter screen.cursor, screen.size⟩
    rw [Array.toList_appendList, List.foldl_append, ← hcursor, hsize]
  case shown_eq =>
    show w.shown = screenAfter screen (accepted.take (w.finished + a.unsignalled))
    rw [hcount]
    exact h.shown_eq
  case isRunning_eq =>
    show w.isRunning = !a.isStopped
    rw [h.isRunning_eq, Activity.isStopped_of_ticket? hw, Activity.isStopped_of_ticket? ha]
  case closed =>
    show a = .stopping ∨ a = .stopped → w.isOpen = false ∧ w.queue = []
    rintro (rfl | rfl)
    · nomatch ha
    · nomatch ha

/-- Every small step of the player keeps the order. -/
theorem Orderly.advance (h : w.Orderly screen accepted) : w.advance.Orderly screen accepted := by
  obtain ⟨isRunning, isOpen, queue, activity, device, shown, signalled, nextTicket, pending,
    played⟩ := w
  cases activity with
  | idle =>
    cases queue with
    | nil =>
      cases isOpen with
      | true => exact h
      | false => exact { h with closed := fun _ => ⟨rfl, rfl⟩ }
    | cons job rest =>
      have hqueue : job :: rest = jobsFrom signalled.length (accepted.drop signalled.length) :=
        h.queue_eq
      obtain ⟨request, hget, rfl, rfl⟩ := of_cons_eq_jobsFrom_drop hqueue
      have hplayed : played.toList = replayAll screen.cursor (accepted.take signalled.length) :=
        h.played_eq rfl
      have hcursor : device.cursor = played.toList.foldl Primitive.cursorAfter screen.cursor :=
        congrArg ScreenState.cursor h.device_eq
      exact { h with
        ticket_eq := by simp [Worker.advance, Activity.ticket?, finished]
        queue_eq := rfl
        taken_le := (List.getElem?_eq_some_iff.mp hget).1
        played_ahead := by
          show played.toList ++ replay device.cursor .empty request =
            replayAll screen.cursor (accepted.take (signalled.length + 1))
          rw [List.take_add_one, hget, Option.toList_some, replayAll_concat, ← hplayed, hcursor]
        closed := by simp [Worker.advance] }
  | playing ticket rest held =>
    cases rest with
    | nil => exact h.plays (a := .releasing ticket held.keys) rfl rfl rfl [] rfl
    | cons step rest =>
      exact h.plays (a := .playing ticket rest (heldAfter held step)) rfl rfl rfl _ rfl
  | releasing ticket keys =>
    cases keys with
    | nil => exact h.plays (a := .showing ticket) rfl rfl rfl [] rfl
    | cons key rest => exact h.plays (a := .releasing ticket rest) rfl rfl rfl [.keyUp key] rfl
  | showing ticket =>
    have hplayed : played.toList =
        replayAll screen.cursor (accepted.take (signalled.length + 1)) := h.played_eq rfl
    exact { h with
      shown_eq := by
        show device = screenAfter screen (accepted.take (signalled.length + 1))
        rw [screenAfter, ← hplayed]
        exact h.device_eq
      closed := by simp [Worker.advance] }
  | signalling ticket =>
    have hplayed : played.toList =
        replayAll screen.cursor (accepted.take (signalled.length + 1)) := h.played_eq rfl
    have hticket : ticket = signalled.length := h.ticket_eq ticket rfl
    have hsignalled : signalled = (List.range signalled.length).reverse := h.signalled_eq
    exact { h with
      signalled_eq := by
        show ticket :: signalled = (List.range (signalled.length + 1)).reverse
        rw [List.range_succ, List.reverse_append, ← hsignalled, hticket]
        rfl
      ticket_eq := by simp [Worker.advance, Activity.ticket?]
      finished_prefix := by
        show replayAll screen.cursor (accepted.take (signalled.length + 1)) <+: played.toList
        exact ⟨[], by rw [List.append_nil, hplayed]⟩
      closed := by simp [Worker.advance] }
  | stopping =>
    have hclosed := h.closed (Or.inl rfl)
    exact { h with
      isRunning_eq := rfl
      closed := fun _ => hclosed }
  | stopped => exact h

/-- An accepted request takes its place behind the others. -/
theorem Orderly.enqueue (h : w.Orderly screen accepted) (hopen : w.isOpen = true)
    (request : List Step) (pending : Option Ticket) :
    Orderly screen (accepted ++ [request])
      { w with
        queue := w.queue ++ [⟨w.nextTicket, request⟩], nextTicket := w.nextTicket + 1, pending } := by
  have hshown : w.shownCount ≤ accepted.length := Nat.le_trans w.shownCount_le_taken h.taken_le
  have hfinished : w.finished ≤ accepted.length := Nat.le_trans w.finished_le_shownCount hshown
  exact {
    nextTicket_eq := by simp [h.nextTicket_eq]
    signalled_eq := h.signalled_eq
    ticket_eq := h.ticket_eq
    queue_eq := by
      show w.queue ++ [⟨w.nextTicket, request⟩] = jobsFrom w.taken ((accepted ++ [request]).drop w.taken)
      rw [List.drop_append_of_le_length h.taken_le, jobsFrom_concat, ← h.queue_eq,
        List.length_drop, Nat.add_sub_cancel' h.taken_le, h.nextTicket_eq]
    taken_le := by
      rw [List.length_append]
      exact Nat.le_add_right_of_le h.taken_le
    played_ahead := by
      show _ = replayAll screen.cursor ((accepted ++ [request]).take w.taken)
      rw [List.take_append_of_le_length h.taken_le]
      exact h.played_ahead
    finished_prefix := by
      show replayAll screen.cursor ((accepted ++ [request]).take w.finished) <+: _
      rw [List.take_append_of_le_length hfinished]
      exact h.finished_prefix
    device_eq := h.device_eq
    shown_eq := by
      show _ = screenAfter screen ((accepted ++ [request]).take w.shownCount)
      rw [List.take_append_of_le_length hshown]
      exact h.shown_eq
    isRunning_eq := h.isRunning_eq
    closed := fun hstop => absurd hopen (by simp [(h.closed hstop).1]) }

/-- The player does not depend on the ticket that is kept. -/
theorem Orderly.takePending (h : w.Orderly screen accepted) :
    Orderly screen accepted { w with pending := none } :=
  { h with }

/-- Closing the queue lets the player stop, and nothing else. -/
theorem Orderly.close (h : w.Orderly screen accepted) : w.close.Orderly screen accepted :=
  { h with closed := fun hstop => ⟨rfl, (h.closed hstop).2⟩ }

/-- The player finishes no request twice. -/
theorem finished_le_advance (w : Worker) : w.finished ≤ w.advance.finished := by
  unfold advance
  split
  · split
    · split <;> exact Nat.le_refl _
    · exact Nat.le_refl _
  · exact Nat.le_refl _
  · rw [foldl_perform]
    exact Nat.le_refl _
  · exact Nat.le_refl _
  · exact Nat.le_refl _
  · exact Nat.le_refl _
  · exact Nat.le_succ _
  · exact Nat.le_refl _
  · exact Nat.le_refl _

/-- The player leaves alone what whoever submits keeps. -/
theorem advance_eq_submitter (w : Worker) :
    w.advance.isOpen = w.isOpen ∧ w.advance.pending = w.pending := by
  unfold advance
  split
  · split
    · split <;> exact ⟨rfl, rfl⟩
    · exact ⟨rfl, rfl⟩
  · exact ⟨rfl, rfl⟩
  · rw [foldl_perform]
    exact ⟨rfl, rfl⟩
  all_goals exact ⟨rfl, rfl⟩

theorem isOpen_advanceUntil (holds : Worker → Bool) (w : Worker) (allowed : Nat) :
    (w.advanceUntil holds allowed).isOpen = w.isOpen := by
  induction allowed generalizing w with
  | zero => rfl
  | succ allowed ih =>
    rw [advanceUntil]
    split
    · rfl
    · rw [ih, w.advance_eq_submitter.1]

theorem Orderly.advanceUntil (h : w.Orderly screen accepted) (holds : Worker → Bool) (allowed : Nat) :
    (w.advanceUntil holds allowed).Orderly screen accepted := by
  induction allowed generalizing w with
  | zero => exact h
  | succ allowed ih =>
    rw [Worker.advanceUntil]
    split
    · exact h
    · exact ih h.advance

/-- Where the queue is closed, the player comes to stop. -/
theorem isStopped_advanceUntil (hclosed : w.isOpen = false) :
    (w.advanceUntil isStopped w.effort).isStopped = true := by
  rcases holds_or_isAtRest_advanceUntil (Nat.le_refl w.effort) with hstopped | hrest
  · exact hstopped
  · rcases hrest with hstopped | ⟨-, -, hopen⟩
    · exact isStopped_iff.mpr hstopped
    · rw [isOpen_advanceUntil, hclosed] at hopen
      cases hopen

/-! ## Where the player stands -/

/-- What was played is the replays of the finished requests and a part of the next one's. -/
theorem Orderly.exists_part (h : w.Orderly screen accepted) :
    ∃ part, w.played.toList = replayAll screen.cursor (accepted.take w.finished) ++ part ∧
      (part ≠ [] → ∃ request, accepted[w.finished]? = some request ∧
        part <+: replay (screenAfter screen (accepted.take w.finished)).cursor .empty request) := by
  obtain ⟨part, hpart⟩ := h.finished_prefix
  refine ⟨part, hpart.symm, ?_⟩
  intro hne
  have hahead := h.played_ahead
  have htaken := h.taken_le
  rw [← hpart, List.append_assoc] at hahead
  cases hticket : w.activity.ticket? with
  | none =>
    have heq : w.taken = w.finished := by simp [taken, hticket]
    rw [heq] at hahead
    have hnil := List.append_right_eq_self.mp hahead
    exact absurd (List.append_eq_nil_iff.mp hnil).1 hne
  | some t =>
    have heq : w.taken = w.finished + 1 := by simp [taken, hticket]
    rw [heq] at hahead htaken
    have hget : accepted[w.finished]? = some accepted[w.finished] :=
      List.getElem?_eq_getElem (by omega)
    rw [List.take_add_one, hget, Option.toList_some, replayAll_concat] at hahead
    exact ⟨_, hget, _, List.append_cancel_left hahead⟩

/-- The screen that is shown is the one after some completed requests. -/
theorem Orderly.shown_prefix (h : w.Orderly screen accepted) :
    replayAll screen.cursor (accepted.take w.shownCount) <+: w.played.toList := by
  cases ha : w.activity with
  | signalling t =>
    have heq : w.shownCount = w.taken := by
      simp [shownCount, taken, ha, Activity.unsignalled, Activity.ticket?]
    have hplayed := h.played_eq (by rw [ha]; rfl)
    exact ⟨[], by rw [List.append_nil, heq, hplayed]⟩
  | _ =>
    have heq : w.shownCount = w.finished := by simp [shownCount, ha, Activity.unsignalled]
    rw [heq]
    exact h.finished_prefix

/-- Once all requests are finished, they are played and the screen is shown as it is. -/
theorem Orderly.of_all_finished (h : w.Orderly screen accepted)
    (hall : accepted.length ≤ w.finished) :
    w.played.toList = replayAll screen.cursor accepted ∧ w.shown = w.device := by
  have hle := h.taken_le
  have htaken : w.taken = w.finished := by
    have : w.finished ≤ w.taken := Nat.le_add_right _ _
    omega
  have hticket : w.activity.ticket? = none := by
    cases hticket : w.activity.ticket? with
    | none => rfl
    | some t => simp [taken, hticket] at htaken
  have hplayed := h.played_eq (Activity.ahead_of_ticket?_eq_none hticket _)
  rw [htaken, List.take_of_length_le hall] at hplayed
  refine ⟨hplayed, ?_⟩
  have hshown : w.shownCount = w.finished := by
    have h1 := w.shownCount_le_taken
    have h2 := w.finished_le_shownCount
    omega
  rw [h.shown_eq, hshown, List.take_of_length_le hall, h.device_eq, hplayed, screenAfter]

/-- A player that waits by an empty queue, or stops, has finished all requests. -/
theorem Orderly.finished_of_queue_eq_nil (h : w.Orderly screen accepted)
    (hticket : w.activity.ticket? = none) (hqueue : w.queue = []) :
    accepted.length ≤ w.finished := by
  have htaken : w.taken = w.finished := by simp [taken, hticket]
  have hjobs := h.queue_eq
  rw [hqueue, htaken, jobsFrom, eq_comm, List.mapIdx_eq_nil_iff, List.drop_eq_nil_iff] at hjobs
  exact hjobs

theorem Orderly.finished_of_isStopped (h : w.Orderly screen accepted)
    (hstopped : w.isStopped = true) : accepted.length ≤ w.finished := by
  have ha : w.activity = .stopped := isStopped_iff.mp hstopped
  exact h.finished_of_queue_eq_nil (by rw [ha]; rfl) (h.closed (Or.inr ha)).2

/-- What it takes for a wait for a ticket to cover all requests: it is the ticket of the last one,
    or there is none and nothing to wait for. -/
def Covers (accepted : List (List Step)) (w : Worker) : Option Ticket → Prop
  | none => accepted.length ≤ w.finished
  | some t => accepted.length = t + 1

theorem Covers.advance {ticket : Option Ticket} (h : w.Covers accepted ticket) :
    w.advance.Covers accepted ticket := by
  cases ticket with
  | none => exact Nat.le_trans h w.finished_le_advance
  | some t => exact h

theorem Covers.takePending {ticket : Option Ticket} (h : w.Covers accepted ticket) :
    Covers accepted { w with pending := none } ticket := by
  cases ticket with
  | none => exact h
  | some t => exact h

/-- **The barrier.**  When the wait for the request accepted last is over, all are finished. -/
theorem Orderly.finished_of_isSettled (h : w.Orderly screen accepted) {ticket : Option Ticket}
    (hcovers : w.Covers accepted ticket) (hsettled : w.isSettled ticket = true) :
    accepted.length ≤ w.finished := by
  cases ticket with
  | none => exact hcovers
  | some t =>
    have hlast : accepted.length = t + 1 := hcovers
    rcases Bool.or_eq_true _ _ |>.mp hsettled with hsignalled | hstopped
    · rw [List.contains_iff_mem, h.signalled_eq, List.mem_reverse, List.mem_range] at hsignalled
      omega
    · exact h.finished_of_isStopped hstopped

/-- A player at rest leaves nothing to wait for. -/
theorem Orderly.isSettled_of_isAtRest (h : w.Orderly screen accepted) {ticket : Option Ticket}
    (hcovers : w.Covers accepted ticket) (hrest : w.IsAtRest) : w.isSettled ticket = true := by
  cases ticket with
  | none => rfl
  | some t =>
    have hlast : accepted.length = t + 1 := hcovers
    rw [isSettled, Option.all_some, Bool.or_eq_true]
    rcases hrest with ha | ⟨ha, hqueue, -⟩
    · exact Or.inr (by rw [isStopped, ha]; rfl)
    · have hall := h.finished_of_queue_eq_nil (by rw [ha]; rfl) hqueue
      refine Or.inl ?_
      rw [List.contains_iff_mem, h.signalled_eq, List.mem_reverse, List.mem_range]
      omega

end Worker

end SpokenCommand.Playback
