import SpokenCommand.Proofs.Activation.Runs
/-!
What the events tell.

Whoever shows the active modes sees the events of the engine and nothing else: names and depths, but
no tree, no numbers and no answers.  It is enough.

1. **The observer** (`Observer.see`) keeps a stack of names and the name of an overlay.  An event FITS
   what the observer has made of those before it if its depth is the height of the observer's own stack
   after the event, and if the mode that it takes off the stack is the one on top.

2. **The outline** of an engine (`Engine.outline`) is what an observer should have: the names of the
   stacked modes and of the target of the overlay.  Switching modes on and off does not touch it, so
   that it depends on stack, overlay and tree alone.

3. **The step** (`Engine.leads_perform`): the events of one operation lead an observer from the outline
   before it to the outline after it, and all of them fit.  This needs no invariant of the engine,
   because names are read from the same tree before and after; a load is the one operation that changes
   the tree, and it leaves nothing on the stack whose name could have changed.

4. **The run** (`Engine.leads_published`) puts the steps together.  An operation that fails makes nothing
   known, save a load, which tells why (`events_perform_of_failed`, `events_load_of_error`).
-/

namespace SpokenCommand

open Modes

/-- What an observer makes of events: the names of the modes entered, innermost first, and the name of
    the overlay. -/
structure Observer where
  stack : List String
  overlay : Option String
deriving DecidableEq, Repr

namespace Observer

/-- Nothing has been seen. -/
def start : Observer := ⟨[], none⟩

/-- One more event. -/
def see (o : Observer) : Event → Observer
  | .definitionsLoaded _ _ => start
  | .modeEntered mode _ => { o with stack := mode :: o.stack }
  | .modeExited _ _ => { o with stack := o.stack.tail }
  | .exclusiveEntered mode => { o with overlay := some mode }
  | .exclusiveExited _ => { o with overlay := none }
  | .reloadFailed _ => o
  | .commandRecognized _ _ => o
  | .phraseRejected _ => o

/-- Events in order. -/
def watch (o : Observer) (events : List Event) : Observer := events.foldl see o

/-- The event tells nothing that contradicts what the observer has. -/
def Fits (o : Observer) (event : Event) : Prop :=
  match event with
  | .modeEntered _ depth => depth = (o.see event).stack.length
  | .modeExited mode depth => depth = (o.see event).stack.length ∧ o.stack.head? = some mode
  | _ => True

/-- Each event fits what the observer has made of those before it. -/
def Follows (o : Observer) : List Event → Prop
  | [] => True
  | event :: rest => o.Fits event ∧ (o.see event).Follows rest

theorem follows_append {o : Observer} {events events' : List Event} :
    o.Follows (events ++ events') ↔ o.Follows events ∧ (o.watch events).Follows events' := by
  induction events generalizing o with
  | nil => exact (true_and _).to_iff.symm
  | cons event rest ih =>
    show o.Fits event ∧ (o.see event).Follows (rest ++ events') ↔
      (o.Fits event ∧ (o.see event).Follows rest) ∧ ((o.see event).watch rest).Follows events'
    rw [ih, and_assoc]

end Observer

namespace Engine

/-! ## The outline -/

/-- What an observer should have. -/
def outline (e : Engine) : Observer :=
  ⟨e.stack.map e.tree.modeName, e.exclusiveTarget.map e.tree.modeName⟩

/-! ## Steps -/

/-- The events lead an observer from the outline of one engine to that of another, and fit. -/
def Leads (e : Engine) (events : List Event) (e' : Engine) : Prop :=
  e.outline.Follows events ∧ e.outline.watch events = e'.outline

/-- Without an event the outline stays. -/
theorem leads_nil {e e' : Engine} (h : e.outline = e'.outline) : e.Leads [] e' := ⟨trivial, h⟩

theorem leads_singleton {e e' : Engine} {event : Event} (hfits : e.outline.Fits event)
    (h : e.outline.see event = e'.outline) : e.Leads [event] e' := ⟨⟨hfits, trivial⟩, h⟩

theorem Leads.append {e e' e'' : Engine} {events events' : List Event} (h : e.Leads events e')
    (h' : e'.Leads events' e'') : e.Leads (events ++ events') e'' := by
  obtain ⟨hfollows, hwatch⟩ := h
  obtain ⟨hfollows', hwatch'⟩ := h'
  rw [← hwatch] at hfollows' hwatch'
  refine ⟨Observer.follows_append.mpr ⟨hfollows, hfollows'⟩, ?_⟩
  rw [Observer.watch, List.foldl_append]
  exact hwatch'

theorem leads_load (e : Engine) (definition : ModeDefinition) :
    e.Leads (e.load definition).events (e.load definition).state := by
  rw [load]
  split
  · exact leads_singleton trivial rfl
  · exact leads_singleton trivial rfl

theorem leads_changeMode (e : Engine) (name : String) :
    e.Leads (e.changeMode name).events (e.changeMode name).state := by
  rw [changeMode]
  split
  · exact leads_nil rfl
  · rename_i target hchild
    -- covering the current mode, or not, leaves the outline
    by_cases hroot : e.current = Tree.root
    · rw [if_pos hroot]
      exact leads_singleton (by simp [Observer.Fits, Observer.see, outline, setModeEnabled]) rfl
    · rw [if_neg hroot]
      exact leads_singleton (by simp [Observer.Fits, Observer.see, outline, setModeEnabled]) rfl

theorem leads_exitMode (e : Engine) : e.Leads e.exitMode.events e.exitMode.state := by
  rw [exitMode]
  split
  · exact leads_nil rfl
  · rename_i left below hstack
    have houtline : e.outline =
        ⟨e.tree.modeName left :: below.map e.tree.modeName, e.exclusiveTarget.map e.tree.modeName⟩ := by
      rw [outline, hstack, List.map_cons]
    have hfits : e.outline.Fits (.modeExited (e.tree.modeName left) below.length) := by
      rw [houtline]
      exact ⟨(List.length_map _).symm, rfl⟩
    refine leads_singleton hfits ?_
    rw [houtline]
    rfl

theorem leads_enterExclusive (e : Engine) (target : ModeId) :
    e.Leads (e.enterExclusive target).events (e.enterExclusive target).state := by
  rw [enterExclusive]
  split
  · exact leads_nil rfl
  · obtain ⟨recognizer, hcovered⟩ := e.setModesEnabled_eq e.suppressible false
    rw [hcovered]
    exact leads_singleton trivial rfl

theorem leads_exitExclusive (e : Engine) (target : ModeId) :
    e.Leads (e.exitExclusive target).events (e.exitExclusive target).state := by
  rw [exitExclusive]
  split
  · exact leads_nil rfl
  · rename_i overlay hoverlay
    obtain ⟨recognizer, hlifted⟩ := setModesEnabled_eq { e with overlay := none } overlay.suppressed true
    rw [hlifted]
    exact leads_singleton trivial rfl

/-- **The step**: what an operation makes known tells exactly what it does to the outline. -/
theorem leads_perform (e : Engine) (op : Operation) :
    e.Leads (e.perform op).events (e.perform op).state := by
  cases op with
  | load definition => exact e.leads_load definition
  | changeMode name => exact e.leads_changeMode name
  | exitMode => exact e.leads_exitMode
  | enterExclusive target => exact e.leads_enterExclusive target
  | exitExclusive target => exact e.leads_exitExclusive target

/-- A load that fails tells why. -/
theorem events_load_of_error {e : Engine} {definition : ModeDefinition} {err : LoadError}
    (hfailed : (e.load definition).result = .error err) :
    (e.load definition).events = [.reloadFailed err.message] := by
  rw [load] at hfailed ⊢
  split at hfailed
  · cases hfailed
  · obtain rfl := Except.error.inj hfailed
    rfl

/-- Any other operation that fails tells nothing. -/
theorem events_perform_of_failed {e : Engine} {op : Operation} (hfailed : (e.perform op).result = false)
    (hop : ∀ definition, op ≠ .load definition) : (e.perform op).events = [] :=
  (perform_of_failed hfailed).2 hop

/-! ## Runs -/

/-- The events of operations in order. -/
def published (e : Engine) : List Operation → List Event
  | [] => []
  | op :: rest => (e.perform op).events ++ (e.perform op).state.published rest

/-- **The run**: an observer that starts with the outline of an engine keeps it. -/
theorem leads_published (e : Engine) (ops : List Operation) :
    e.Leads (e.published ops) (e.run ops) := by
  induction ops generalizing e with
  | nil => exact leads_nil rfl
  | cons op rest ih => exact (e.leads_perform op).append (ih (e.perform op).state)

/-- **The events tell the outline**: after any operations on a new engine, those that fail included, an
    observer has the names of the modes on the stack and that of the overlay's target, and all events
    so far have fitted.  An operation that fails next tells nothing, save a load, which tells why. -/
theorem watch_published (ops : List Operation) :
    let e := empty.run ops
    let seen := Observer.start.watch (empty.published ops)
    seen.stack = e.stack.map e.tree.modeName ∧
      seen.overlay = e.exclusiveTarget.map e.tree.modeName ∧
      Observer.start.Follows (empty.published ops) ∧
      (∀ op, (e.perform op).result = false → (∀ definition, op ≠ .load definition) →
        (e.perform op).events = []) ∧
      ∀ definition err, (e.load definition).result = .error err →
        (e.perform (.load definition)).events = [.reloadFailed err.message] := by
  obtain ⟨hfollows, hwatch⟩ := empty.leads_published ops
  refine ⟨congrArg Observer.stack hwatch, congrArg Observer.overlay hwatch, hfollows, ?_, ?_⟩
  · intro op hfailed hop
    exact events_perform_of_failed hfailed hop
  · intro definition err hfailed
    exact events_load_of_error hfailed

/-- A reload under an overlay: the observer forgets both, and goes on with the new tree. -/
example :
    let ops := [.load sample, .changeMode "Program", .enterExclusive 3, .load sample,
      .changeMode "SPELL"]
    empty.published ops = [.definitionsLoaded 4 4, .modeEntered "program" 1, .exclusiveEntered "spell",
        .definitionsLoaded 4 4, .modeEntered "spell" 1] ∧
      Observer.start.watch (empty.published ops) = ⟨["spell"], none⟩ := by
  decide +kernel

end Engine

end SpokenCommand
