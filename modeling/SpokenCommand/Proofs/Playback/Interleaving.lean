import SpokenCommand.Proofs.Playback.Stage
/-!
What holds of a session and its player, however the two interleave.

1. **The calls of a session are those of a stage.**  `Session.drain`, `Session.reload` and
   `Session.shutdown` let the player move for as long as they wait, so that each is a call of the
   dispatcher with some moves of the player before it returns (`Sound.exists_run_call`).  It does
   return: the player gets to rest, and at rest there is nothing to wait for.

2. **Order and barrier** (`order_and_barrier`): requests are played in order and completely, a call that
   waited returns with all of them played, and nothing is played after the player was shut down.

3. **No key is stuck** (`released_between_requests`): a request lets go of what it holds, so that no key
   is down when nothing of a request is ahead of the player.
-/

namespace SpokenCommand

open Playback Script

namespace Stage

variable {screen : ScreenState} {s s' : Stage} {action : Action} {answer : Option Answer}

/-! ## The calls of a session -/

/-- What the session does when it is called for a purpose. -/
def carryOut (session : Session) : Purpose → Session
  | .drain => session.drain
  | .reload file => (session.reload file).state
  | .shutdown => session.shutdown

/-- Waiting is some moves of the player. -/
theorem exists_run_advanceUntil (s : Stage) (holds : Worker → Bool) (allowed : Nat) :
    ∃ n, s.run (List.replicate n .play) = s.withWorker (s.worker.advanceUntil holds allowed) := by
  induction allowed generalizing s with
  | zero => exact ⟨0, rfl⟩
  | succ allowed ih =>
    rw [Worker.advanceUntil]
    split
    · exact ⟨0, rfl⟩
    · obtain ⟨n, hn⟩ := ih (s.withWorker s.worker.advance)
      exact ⟨n + 1, hn⟩

/-- A dispatcher that waits for a ticket gets it once the player has moved on. -/
theorem Sound.exists_run_settled (h : s.Sound screen) {ticket : Option Ticket} {purpose : Purpose}
    (hduty : s.duty = .waiting ticket purpose) :
    ∃ n, s.run (List.replicate n .play) =
        s.withWorker (s.worker.advanceUntil (·.isSettled ticket) s.worker.effort) ∧
      (s.worker.advanceUntil (·.isSettled ticket) s.worker.effort).isSettled ticket = true := by
  obtain ⟨n, hn⟩ := s.exists_run_advanceUntil (·.isSettled ticket) s.worker.effort
  refine ⟨n, hn, ?_⟩
  have hsound := h.run (List.replicate n .play)
  rw [hn] at hsound
  have hwaits : (s.withWorker (s.worker.advanceUntil (·.isSettled ticket) s.worker.effort)).duty =
      .waiting ticket purpose := hduty
  have hcovers := hsound.covers
  rw [awaited_of_waiting hwaits] at hcovers
  have hends := @Worker.holds_or_isAtRest_advanceUntil (·.isSettled ticket) s.worker _
    (Nat.le_refl s.worker.effort)
  rcases hends with hsettled | hrest
  · exact hsettled
  · exact hsound.orderly.isSettled_of_isAtRest hcovers hrest

/-- A dispatcher that waits for the player to stop gets there. -/
theorem exists_run_stopped (hclosed : s.worker.isOpen = false) :
    ∃ n, s.run (List.replicate n .play) =
        s.withWorker (s.worker.advanceUntil Worker.isStopped s.worker.effort) ∧
      (s.worker.advanceUntil Worker.isStopped s.worker.effort).isStopped = true := by
  obtain ⟨n, hn⟩ := s.exists_run_advanceUntil Worker.isStopped s.worker.effort
  exact ⟨n, hn, Worker.isStopped_advanceUntil hclosed⟩

/-- **The calls of a session return**, and are such calls of the dispatcher. -/
theorem Sound.exists_run_call (h : s.Sound screen) (hfree : s.duty = .free) (purpose : Purpose) :
    ∃ waiting : List Action, (∀ action ∈ waiting, action = .play ∨ action = .resume) ∧
      (s.run (.call purpose :: waiting)).act .resume =
        ({ s with session := carryOut s.session purpose }, some (.returned purpose)) := by
  obtain ⟨session, duty, accepted⟩ := s
  obtain rfl : duty = .free := hfree
  have hplay : ∀ m, ∀ action ∈ List.replicate m Action.play, action = .play ∨ action = .resume :=
    fun m action hmem => Or.inl (List.eq_of_mem_replicate hmem)
  obtain ⟨n, hn, hsettled⟩ := (h.act (.call purpose)).exists_run_settled rfl
  have hdrain : (Stage.mk session .free accepted).run (.call purpose :: List.replicate n .play) =
      ⟨session.drain, .waiting session.worker.pending purpose, accepted⟩ := hn
  have hdrained : session.drain.worker.isSettled session.worker.pending = true := hsettled
  cases purpose with
  | drain =>
    refine ⟨List.replicate n .play, hplay n, ?_⟩
    rw [hdrain]
    simp only [Stage.act, worker, hdrained, if_true, carryOut]
  | reload file =>
    refine ⟨List.replicate n .play, hplay n, ?_⟩
    rw [hdrain]
    simp only [Stage.act, worker, hdrained, if_true, carryOut, Session.state_reload]
  | shutdown =>
    -- Two waits in a row: for the last request, and for the player to stop.
    let closing : Stage :=
      ⟨{ session with worker := session.worker.drain.close }, .joining, accepted⟩
    have hclose : ((Stage.mk session.drain (.waiting session.worker.pending .shutdown)
        accepted).act .resume).1 = closing := by
      simp only [Stage.act, worker, hdrained, if_true]
      rfl
    have hclosed : closing.worker.isOpen = false := rfl
    obtain ⟨m, hm, hstopped⟩ := exists_run_stopped hclosed
    have hshutdown : closing.run (List.replicate m .play) =
        ⟨session.shutdown, .joining, accepted⟩ := hm
    have hjoined : session.shutdown.worker.isStopped = true := hstopped
    refine ⟨List.replicate n .play ++ .resume :: List.replicate m .play, ?_, ?_⟩
    · intro action hmem
      rcases List.mem_append.mp hmem with hmem | hmem
      · exact hplay n action hmem
      · rcases List.mem_cons.mp hmem with rfl | hmem
        · exact Or.inr rfl
        · exact hplay m action hmem
    · rw [← List.cons_append, run_append, hdrain, run_cons, hclose, hshutdown]
      simp only [Stage.act, worker, hjoined, if_true, carryOut]

/-! ## What holds throughout -/

/-- What was played is the replays of the first accepted requests, each from where the one before
    left the cursor, and a part of the replay of the next one. -/
def InOrder (screen : ScreenState) (s : Stage) : Prop :=
  ∃ k part, k ≤ s.accepted.length ∧
    s.played = replayAll screen.cursor (s.accepted.take k) ++ part ∧
    (part ≠ [] → ∃ request, s.accepted[k]? = some request ∧
      part <+: replay (screenAfter screen (s.accepted.take k)).cursor .empty request)

/-- All accepted requests are played completely, and the screen is shown as it is. -/
def CaughtUp (screen : ScreenState) (s : Stage) : Prop :=
  s.played = replayAll screen.cursor s.accepted ∧ s.worker.shown = s.worker.device

/-- A screen as it is after the first accepted requests, which are played. -/
def ShowsPrefix (screen : ScreenState) (s : Stage) (shown : ScreenState) : Prop :=
  ∃ k ≤ s.accepted.length, shown = screenAfter screen (s.accepted.take k) ∧
    replayAll screen.cursor (s.accepted.take k) <+: s.played

/-- No request is accepted any more. -/
def Refuses (s : Stage) : Prop :=
  s.duty = .free → ∀ request, request ≠ [] →
    s.act (.submit request) = (s, some (.submitted (.error .stopped)))

theorem Sound.inOrder (h : s.Sound screen) : s.InOrder screen := by
  obtain ⟨part, hplayed, hpart⟩ := h.orderly.exists_part
  refine ⟨s.worker.finished, part, ?_, hplayed, hpart⟩
  exact Nat.le_trans (Nat.le_add_right _ _) h.orderly.taken_le

theorem Sound.showsPrefix (h : s.Sound screen) : s.ShowsPrefix screen s.worker.shown := by
  refine ⟨s.worker.shownCount, ?_, h.orderly.shown_eq, h.orderly.shown_prefix⟩
  exact Nat.le_trans s.worker.shownCount_le_taken h.orderly.taken_le

/-- A call that waited returns to a stage that has caught up. -/
theorem Happens.caughtUp {purpose : Purpose} (hact : s.Happens action s' (some (.returned purpose)))
    (h : s.Sound screen) : s.CaughtUp screen ∧ s'.CaughtUp screen := by
  cases hact with
  | drained hduty hsettled =>
    have hcaught := h.orderly.of_all_finished (h.finished_of_waiting hduty hsettled)
    exact ⟨hcaught, hcaught⟩
  | reloaded hduty hsettled =>
    have hcaught := h.orderly.of_all_finished (h.finished_of_waiting hduty hsettled)
    refine ⟨hcaught, ?_⟩
    rw [CaughtUp, played, worker, Session.worker_load]
    exact hcaught
  | joined hduty hstopped =>
    have hcaught := h.orderly.of_all_finished (h.orderly.finished_of_isStopped hstopped)
    exact ⟨hcaught, hcaught⟩

theorem Happens.screen_eq {shown : ScreenState} (hact : s.Happens action s' (some (.screen shown))) :
    s.worker.shown = shown := by
  cases hact
  rfl

/-- A shutdown returns when the player has stopped. -/
theorem Happens.isStopped (hact : s.Happens action s' (some (.returned .shutdown))) :
    s'.worker.isStopped = true := by
  cases hact with
  | joined hduty hstopped => exact hstopped

/-- Only a reload that returns changes the modes. -/
theorem Happens.returned_of_tree_ne (hact : s.Happens action s' answer)
    (hne : s'.session.engine.tree ≠ s.session.engine.tree) :
    ∃ file, answer = some (.returned (.reload file)) := by
  cases hact with
  | reloaded hduty hsettled => exact ⟨_, rfl⟩
  | _ => exact absurd rfl hne

/-- A player that has stopped plays nothing, whatever happens. -/
theorem Happens.stopped (hact : s.Happens action s' answer) (hstopped : s.worker.isStopped = true) :
    s'.worker.isStopped = true ∧ s'.played = s.played := by
  cases hact with
  | moved =>
    have hrest : s.worker.IsAtRest := Or.inl (Worker.isStopped_iff.mp hstopped)
    rw [Worker.advance_of_isAtRest hrest]
    exact ⟨hstopped, rfl⟩
  | reloaded hduty hsettled =>
    rw [played, worker, Session.worker_load]
    exact ⟨hstopped, rfl⟩
  | _ => exact ⟨hstopped, rfl⟩

theorem run_stopped (hstopped : s.worker.isStopped = true) (later : List Action) :
    (s.run later).worker.isStopped = true ∧ (s.run later).played = s.played := by
  induction later generalizing s with
  | nil => exact ⟨hstopped, rfl⟩
  | cons action rest ih =>
    obtain ⟨hstopped', hplayed⟩ := (s.act_happens action).stopped hstopped
    obtain ⟨hstopped'', hplayed'⟩ := ih hstopped'
    exact ⟨hstopped'', hplayed'.trans hplayed⟩

theorem Sound.refuses (h : s.Sound screen) (hstopped : s.worker.isStopped = true) : s.Refuses := by
  intro hfree request hne
  have hrunning : s.worker.isRunning = false := by
    rw [h.orderly.isRunning_eq, show s.worker.activity.isStopped = true from hstopped, Bool.not_true]
  have hempty : request.isEmpty = false := by simpa using hne
  have hsubmit : s.worker.submit request = (s.worker, .error .stopped) := by
    simp only [Worker.submit, hempty, hrunning, Bool.false_and, Bool.false_eq_true, if_false]
  obtain ⟨session, duty, accepted⟩ := s
  obtain rfl : duty = .free := hfree
  rw [Stage.act, hsubmit, hempty]
  rfl

/-- **Order and barrier.**  Whatever the dispatcher does while the player moves, and at any time:
    requests are played in order; a call that waited returns with all of them played and their screen
    shown; a screen that is read is the one after completed requests; nothing is played or accepted
    once a shutdown has returned; and the modes change only when a reload returns, with nothing left to
    play.  And the calls of a session are such calls, and return. -/
theorem order_and_barrier (session : Session) (screen : ScreenState) (actions : List Action) :
    let s := (start session screen).run actions
    s.InOrder screen ∧
    (∀ action,
      let t := (s.act action).1
      (∀ purpose, (s.act action).2 = some (.returned purpose) → t.CaughtUp screen) ∧
      (∀ shown, (s.act action).2 = some (.screen shown) → s.ShowsPrefix screen shown) ∧
      ((s.act action).2 = some (.returned .shutdown) →
        ∀ later, (t.run later).played = t.played ∧ (t.run later).Refuses) ∧
      (t.session.engine.tree ≠ s.session.engine.tree →
        s.CaughtUp screen ∧ ∃ file, (s.act action).2 = some (.returned (.reload file)))) ∧
    (s.duty = .free → ∀ purpose, ∃ waiting : List Action,
      (∀ action ∈ waiting, action = .play ∨ action = .resume) ∧
        (s.run (.call purpose :: waiting)).act .resume =
          ({ s with session := carryOut s.session purpose }, some (.returned purpose))) := by
  intro s
  have hsound : s.Sound screen := (sound_start session screen).run actions
  refine ⟨hsound.inOrder, ?_, fun hfree purpose => hsound.exists_run_call hfree purpose⟩
  intro action t
  have hact : s.Happens action t (s.act action).2 := s.act_happens action
  refine ⟨?_, ?_, ?_, ?_⟩
  · intro purpose hreturned
    rw [hreturned] at hact
    exact (hact.caughtUp hsound).2
  · intro shown hread
    rw [hread] at hact
    exact hact.screen_eq ▸ hsound.showsPrefix
  · intro hreturned later
    have hsound' : t.Sound screen := hsound.act action
    have hstopped : t.worker.isStopped = true := by
      rw [hreturned] at hact
      exact hact.isStopped
    obtain ⟨hstill, hplayed⟩ := run_stopped hstopped later
    exact ⟨hplayed, (hsound'.run later).refuses hstill⟩
  · intro hne
    obtain ⟨file, hreturned⟩ := hact.returned_of_tree_ne hne
    rw [hreturned] at hact
    exact ⟨(hact.caughtUp hsound).1, file, hreturned⟩

/-! ## No key is stuck -/

/-- Between two requests no key is down. -/
theorem Sound.not_isDown (h : s.Sound screen)
    (hahead : s.worker.activity.ahead s.worker.device.cursor = []) (key : Key) :
    isDown key s.played = false := by
  rw [played, h.orderly.played_eq hahead]
  exact not_isDown_replayAll key _ _

/-- **A request releases what it holds.**  It plays its trace and then lets go, in order, of the keys
    whose last hold or release is a hold.  So no key is down after it, nor after requests played one
    after another, nor at any time at which nothing of a request is ahead of the player. -/
theorem released_between_requests (cursor : Point) (request : List Step) (session : Session)
    (screen : ScreenState) (actions : List Action) :
    let s := (start session screen).run actions
    (∃ released : List Key,
      replay cursor .empty request = ownTrace cursor request ++ released.map .keyUp ∧
        released.Pairwise (·.rank < ·.rank) ∧ ∀ key, key ∈ released ↔ EndsHeld key request) ∧
    ∀ key,
      isDown key (replay cursor .empty request) = false ∧
      (∀ k, isDown key (replayAll screen.cursor (s.accepted.take k)) = false) ∧
      (s.worker.activity.ahead s.worker.device.cursor = [] → isDown key s.played = false) := by
  intro s
  have hsound : s.Sound screen := (sound_start session screen).run actions
  refine ⟨?_, ?_⟩
  · let held := request.foldl heldAfter .empty
    exact ⟨held.keys, replay_eq _ _ _, held.increasing, fun key => mem_foldl_heldAfter⟩
  · intro key
    refine ⟨?_, fun k => not_isDown_replayAll key _ _, fun hahead => hsound.not_isDown hahead key⟩
    have hend := foldl_downAfter_replay key cursor .empty request
    rwa [show decide (key ∈ HeldKeys.empty.keys) = false from rfl] at hend

end Stage

end SpokenCommand
