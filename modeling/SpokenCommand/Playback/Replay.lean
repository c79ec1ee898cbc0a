import SpokenCommand.Script.Step
/-!
What playing a script does to the machine.

Playing is a list of PRIMITIVES: typing a text, moving a key, moving the cursor, clicking, waiting.
A player knows where the cursor is, because relative movements start from there, and which keys the
script is holding down, because those are let go when it ends: a script may write `+Shift` without a
matching `-Shift`.
-/

namespace SpokenCommand.Playback

open Script

/-- One thing done to the machine. -/
inductive Primitive where
  | typeText (text : String)
  | keyDown (key : Key)
  | keyUp (key : Key)
  | keyPress (key : Key)
  | moveCursor (target : Point)
  | click (button : Button)
  | sleep (milliseconds : Nat)
deriving DecidableEq, Repr

/-- The width and height of a screen. -/
structure Size where
  width : Int
  height : Int
deriving DecidableEq, Repr

/-- The screen as playback last saw it. -/
structure ScreenState where
  cursor : Point
  size : Size
deriving DecidableEq, Repr

/-- Where the cursor is after a primitive. -/
def Primitive.cursorAfter (cursor : Point) : Primitive → Point
  | moveCursor target => target
  | _ => cursor

/-- The keys that a script holds after a step. -/
def heldAfter (held : HeldKeys) : Step → HeldKeys
  | .key key .hold => held.press key
  | .key key .release => held.release key
  | _ => held

/-- The primitives of one step, played with the cursor at a given place. -/
def primitives (cursor : Point) : Step → List Primitive
  | .text text => [.typeText text]
  | .key key .hold => [.keyDown key]
  | .key key .release => [.keyUp key]
  | .key key .press => [.keyPress key]
  | .mouse action =>
    (action.target cursor).toList.map .moveCursor ++ action.click.toList.map .click
  | .delay ms => if ms = 0 then [] else [.sleep ms]

/-- The primitives of a script from a cursor on, while `held` keys are down, with those that let go
    of the keys still held at its end. -/
def replay (cursor : Point) (held : HeldKeys) : List Step → List Primitive
  | [] => held.keys.map .keyUp
  | step :: rest =>
    let now := primitives cursor step
    now ++ replay (now.foldl Primitive.cursorAfter cursor) (heldAfter held step) rest

end SpokenCommand.Playback
