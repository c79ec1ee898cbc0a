import Mathlib.Data.List.Induction
import SpokenCommand.Playback.Replay
/-!
What a script amounts to when it is played.

`replay` carries two things from step to step, the cursor and the keys held down.  Here they are taken
apart.

1. **The trace** of a script is what its steps do on their own, in order, each from where the steps
   before it left the cursor.  It knows nothing of keys that are held.

2. **The keys held at the end** are those whose last hold or release is a hold (`EndsHeld`).  This is
   said of the script as it is written, and not of a set that is kept while it is played.

3. **The crux (`replay_eq`)** is that playing is the trace followed by the release of these keys, so
   that a key is down along the way just when the set holds it, and no key is down in the end.

Requests that are played one after another hand on the cursor and nothing else (`replayAll`).
-/

namespace SpokenCommand.Script

/-! ## Sets of keys -/

theorem Key.rank_injective {a b : Key} (h : a.rank = b.rank) : a = b := by
  cases a <;> cases b <;> simp only [Key.rank] at h <;> first | rfl | omega | (congr 1; omega)

theorem mem_insertKey_iff {x key : Key} {keys : List Key} :
    x ∈ insertKey key keys ↔ x = key ∨ x ∈ keys := by
  refine ⟨mem_insertKey, ?_⟩
  induction keys with
  | nil => simp [insertKey]
  | cons k rest ih =>
    intro hx
    simp only [insertKey]
    split
    · simpa using hx
    · split
      · rcases hx with rfl | hx
        · exact List.mem_cons_of_mem _ (ih (Or.inl rfl))
        · rcases List.mem_cons.mp hx with rfl | hx
          · exact List.mem_cons_self
          · exact List.mem_cons_of_mem _ (ih (Or.inr hx))
      · -- Keys of equal rank are the same key.
        have hk : key = k := Key.rank_injective (by omega)
        rcases hx with rfl | hx
        · exact hk ▸ List.mem_cons_self
        · exact hx

theorem HeldKeys.mem_press {held : HeldKeys} {key x : Key} :
    x ∈ (held.press key).keys ↔ x = key ∨ x ∈ held.keys :=
  mem_insertKey_iff

theorem HeldKeys.mem_release {held : HeldKeys} {key x : Key} :
    x ∈ (held.release key).keys ↔ x ∈ held.keys ∧ x ≠ key := by
  simp [release]

end SpokenCommand.Script

namespace SpokenCommand.Playback

open Script

variable {key : Key} {step : Step} {steps : List Step} {held : HeldKeys} {cursor : Point}

/-! ## The trace of a script -/

/-- Where an axis leads: an absolute one to its own value, a relative one as far from the current
    coordinate, within 32 bits, and an open one nowhere. -/
def axisTarget (current : Int) : Axis → Int
  | ⟨none, _⟩ => current
  | ⟨some v, true⟩ => v
  | ⟨some v, false⟩ =>
    if 2147483647 < current + v then 2147483647
    else if current + v < -2147483648 then -2147483648
    else current + v

/-- Where a step leaves the cursor. -/
def cursorPast (cursor : Point) : Step → Point
  | .mouse a => ⟨axisTarget cursor.x a.x, axisTarget cursor.y a.y⟩
  | _ => cursor

/-- What a step does on its own. -/
def ownPrimitives (cursor : Point) : Step → List Primitive
  | .text text => [.typeText text]
  | .key key .hold => [.keyDown key]
  | .key key .release => [.keyUp key]
  | .key key .press => [.keyPress key]
  | .mouse a =>
    (if a.x.value = none ∧ a.y.value = none then []
      else [.moveCursor ⟨axisTarget cursor.x a.x, axisTarget cursor.y a.y⟩])
      ++ (match a.click with
        | some button => [.click button]
        | none => [])
  | .delay ms => if 0 < ms then [.sleep ms] else []

/-- What the steps of a script do on their own, in order, each from where the steps before it left
    the cursor. -/
def ownTrace (cursor : Point) : List Step → List Primitive
  | [] => []
  | step :: rest => ownPrimitives cursor step ++ ownTrace (cursorPast cursor step) rest

theorem resolve_eq_axisTarget (axis : Axis) (current : Int) :
    axis.resolve current = axisTarget current axis := by
  obtain ⟨value, isAbsolute⟩ := axis
  cases value with
  | none => rfl
  | some v =>
    cases isAbsolute with
    | true => rfl
    | false =>
      simp only [Axis.resolve, axisTarget, saturate, Text.maxInt32, Bool.false_eq_true, if_false]
      split
      · omega
      · split <;> omega

theorem primitives_eq_ownPrimitives (cursor : Point) (step : Step) :
    primitives cursor step = ownPrimitives cursor step := by
  cases step with
  | text text => rfl
  | key key motion => cases motion <;> rfl
  | delay ms =>
    simp only [primitives, ownPrimitives, Nat.pos_iff_ne_zero]
    split <;> simp_all
  | mouse a =>
    obtain ⟨⟨x, xAbsolute⟩, ⟨y, yAbsolute⟩, click⟩ := a
    simp only [primitives, ownPrimitives, MouseAction.target, resolve_eq_axisTarget]
    cases x <;> cases y <;> cases click <;> rfl

theorem cursorAfter_primitives (cursor : Point) (step : Step) :
    (primitives cursor step).foldl Primitive.cursorAfter cursor = cursorPast cursor step := by
  cases step with
  | text text => rfl
  | key key motion => cases motion <;> rfl
  | delay ms =>
    simp only [primitives, cursorPast]
    split <;> rfl
  | mouse a =>
    obtain ⟨⟨x, xAbsolute⟩, ⟨y, yAbsolute⟩, click⟩ := a
    simp only [primitives, cursorPast, MouseAction.target, resolve_eq_axisTarget]
    cases x <;> cases y <;> cases click <;> rfl

/-- **Playing is the trace, followed by the release of the keys still held.** -/
theorem replay_eq (cursor : Point) (held : HeldKeys) (steps : List Step) :
    replay cursor held steps =
      ownTrace cursor steps ++ (steps.foldl heldAfter held).keys.map .keyUp := by
  induction steps generalizing cursor held with
  | nil => rfl
  | cons step rest ih =>
    rw [replay, ih, cursorAfter_primitives, primitives_eq_ownPrimitives, ownTrace,
      List.foldl_cons, List.append_assoc]

/-! ## The keys held at the end -/

/-- The last step of a script that holds or releases a key holds it. -/
def EndsHeld (key : Key) (steps : List Step) : Prop :=
  ∃ before after, steps = before ++ .key key .hold :: after ∧
    .key key .hold ∉ after ∧ .key key .release ∉ after

theorem mem_heldAfter : key ∈ (heldAfter held step).keys ↔
    step = .key key .hold ∨ key ∈ held.keys ∧ step ≠ .key key .release := by
  unfold heldAfter
  split
  · rename_i k
    rw [HeldKeys.mem_press]
    by_cases hk : key = k
    · simp [hk]
    · simp [hk, Ne.symm hk]
  · rename_i k
    rw [HeldKeys.mem_release]
    simp [eq_comm]
  · rename_i hhold hrelease
    constructor
    · intro hkey
      exact Or.inr ⟨hkey, hrelease key⟩
    · rintro (rfl | ⟨hkey, -⟩)
      · exact absurd rfl (hhold key)
      · exact hkey

theorem endsHeld_concat : EndsHeld key (steps ++ [step]) ↔
    step = .key key .hold ∨ EndsHeld key steps ∧ step ≠ .key key .release := by
  constructor
  · rintro ⟨before, after, heq, hhold, hrelease⟩
    rcases List.eq_nil_or_concat after with rfl | ⟨inner, last, rfl⟩
    · exact Or.inl (List.append_inj_right' heq rfl |> List.singleton_inj.mp)
    · rw [List.concat_eq_append] at heq hhold hrelease
      rw [← List.cons_append, ← List.append_assoc] at heq
      obtain ⟨rfl, hlast⟩ := List.append_inj' heq rfl
      obtain rfl := List.singleton_inj.mp hlast
      rw [List.mem_append, not_or] at hhold hrelease
      exact Or.inr ⟨⟨before, inner, rfl, hhold.1, hrelease.1⟩,
        fun h => hrelease.2 (h ▸ List.mem_singleton_self _)⟩
  · by_cases hstep : step = .key key .hold
    · intro _
      exact ⟨steps, [], by rw [hstep], List.not_mem_nil, List.not_mem_nil⟩
    · rintro (h | ⟨⟨before, after, rfl, hhold, hrelease⟩, hne⟩)
      · exact absurd h hstep
      · refine ⟨before, after ++ [step], by simp, ?_, ?_⟩
        · simp [hhold, Ne.symm hstep]
        · simp [hrelease, Ne.symm hne]

/-- The set of held keys is what the script says of them. -/
theorem mem_foldl_heldAfter :
    key ∈ (steps.foldl heldAfter .empty).keys ↔ EndsHeld key steps := by
  induction steps using List.reverseRecOn with
  | nil => simp [HeldKeys.empty, EndsHeld]
  | append_singleton steps step ih =>
    rw [List.foldl_append, List.foldl_cons, List.foldl_nil, mem_heldAfter, endsHeld_concat, ih]

/-! ## Keys that are down -/

/-- Whether a key is down after a primitive.  A press leaves the key as it was. -/
def Primitive.downAfter (key : Key) (wasDown : Bool) : Primitive → Bool
  | keyDown k => if k = key then true else wasDown
  | keyUp k => if k = key then false else wasDown
  | _ => wasDown

/-- Whether a key is down after primitives, if none was down before. -/
def isDown (key : Key) (played : List Primitive) : Bool :=
  played.foldl (Primitive.downAfter key) false

/-- A key is down after a step of a script just when it is held then. -/
theorem foldl_downAfter_primitives (key : Key) (held : HeldKeys) (cursor : Point) (step : Step) :
    (primitives cursor step).foldl (Primitive.downAfter key) (decide (key ∈ held.keys)) =
      decide (key ∈ (heldAfter held step).keys) := by
  rw [Bool.eq_iff_iff, decide_eq_true_iff, mem_heldAfter]
  cases step with
  | text text => simp [primitives, Primitive.downAfter]
  | key k motion =>
    by_cases hk : k = key
    · cases motion <;> simp [primitives, Primitive.downAfter, hk]
    · cases motion <;> simp [primitives, Primitive.downAfter, hk]
  | delay ms =>
    simp only [primitives]
    split <;> simp [Primitive.downAfter]
  | mouse a =>
    simp only [primitives]
    cases a.target cursor <;> cases a.click <;> simp [Primitive.downAfter]

theorem foldl_downAfter_keyUp (key : Key) (keys : List Key) (wasDown : Bool) :
    (keys.map Primitive.keyUp).foldl (Primitive.downAfter key) wasDown =
      (wasDown && !decide (key ∈ keys)) := by
  induction keys generalizing wasDown with
  | nil => simp
  | cons k rest ih =>
    rw [List.map_cons, List.foldl_cons, ih]
    by_cases hk : k = key
    · simp [Primitive.downAfter, hk]
    · simp [Primitive.downAfter, hk, Ne.symm hk]

/-- Playing a script that starts with some keys held ends with none down. -/
theorem foldl_downAfter_replay (key : Key) (cursor : Point) (held : HeldKeys) (steps : List Step) :
    (replay cursor held steps).foldl (Primitive.downAfter key) (decide (key ∈ held.keys)) =
      false := by
  induction steps generalizing cursor held with
  | nil => simp [replay, foldl_downAfter_keyUp]
  | cons step rest ih =>
    rw [replay, List.foldl_append, foldl_downAfter_primitives]
    exact ih _ _

/-! ## One request after another -/

/-- Requests played one after another, each from where the one before it left the cursor. -/
def replayAll (cursor : Point) : List (List Step) → List Primitive
  | [] => []
  | request :: rest =>
    let now := replay cursor .empty request
    now ++ replayAll (now.foldl Primitive.cursorAfter cursor) rest

theorem replayAll_concat (cursor : Point) (requests : List (List Step)) (request : List Step) :
    replayAll cursor (requests ++ [request]) =
      replayAll cursor requests ++
        replay ((replayAll cursor requests).foldl Primitive.cursorAfter cursor) .empty request := by
  induction requests generalizing cursor with
  | nil => simp [replayAll]
  | cons first rest ih =>
    rw [List.cons_append, replayAll, ih, replayAll, List.foldl_append, List.append_assoc]

/-- No key is down between two requests. -/
theorem not_isDown_replayAll (key : Key) (cursor : Point) (requests : List (List Step)) :
    isDown key (replayAll cursor requests) = false := by
  induction requests generalizing cursor with
  | nil => rfl
  | cons request rest ih =>
    have hnow := foldl_downAfter_replay key cursor .empty request
    rw [isDown, replayAll, List.foldl_append]
    have hempty : decide (key ∈ HeldKeys.empty.keys) = false := by simp [HeldKeys.empty]
    rw [hempty] at hnow
    rw [hnow]
    exact ih _

end SpokenCommand.Playback
