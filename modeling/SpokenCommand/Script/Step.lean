import SpokenCommand.Script.Key
import SpokenCommand.Text.Decimal
/-!
The steps of an action script.

A script is a list of steps that are played in order: text to type, keys to press, hold or release,
movements and clicks of the mouse, and pauses.

Each axis of a mouse step is ABSOLUTE or RELATIVE to where the cursor is at that moment, and may be
left open.  Coordinates are 32-bit numbers; a relative movement that would leave their range stops
at its end.
-/

namespace SpokenCommand.Script

/-- A mouse button. -/
inductive Button where
  | left
  | middle
  | right
deriving DecidableEq, Repr

namespace Button

/-- The button that a letter stands for, in either case. -/
def ofLetter? (c : Char) : Option Button :=
  match c.toUpper with
  | 'L' => some left
  | 'M' => some middle
  | 'R' => some right
  | _ => none

/-- The name under which a button is shown. -/
def name : Button → String
  | left => "Left"
  | middle => "Middle"
  | right => "Right"

end Button

/-- What happens to a key. -/
inductive KeyMotion where
  | press
  | hold
  | release
deriving DecidableEq, Repr

/-- One coordinate of a mouse step, possibly left open. -/
structure Axis where
  value : Option Int
  isAbsolute : Bool
deriving DecidableEq, Repr

/-- A place on the screen. -/
structure Point where
  x : Int
  y : Int
deriving DecidableEq, Repr

/-- A movement of the cursor, a click, or both. -/
structure MouseAction where
  x : Axis
  y : Axis
  click : Option Button
deriving DecidableEq, Repr

/-- One step of an action script. -/
inductive Step where
  | text (text : String)
  | key (key : Key) (motion : KeyMotion)
  | mouse (action : MouseAction)
  | delay (milliseconds : Nat)
deriving DecidableEq, Repr

/-- The coordinate nearest to `n` that is a 32-bit number. -/
def saturate (n : Int) : Int :=
  max (-(Text.maxInt32 : Int) - 1) (min (Text.maxInt32 : Int) n)

namespace Axis

/-- Where an axis leads from the current coordinate. -/
def resolve (axis : Axis) (current : Int) : Int :=
  match axis.value with
  | none => current
  | some v => if axis.isAbsolute then v else saturate (current + v)

/-- An axis as a script writes it. -/
def render (axis : Axis) : String :=
  match axis.value with
  | none => ""
  | some v => if axis.isAbsolute || v < 0 then toString v else "+" ++ toString v

end Axis

/-- Where a mouse step leads the cursor; nowhere when both axes are open. -/
def MouseAction.target (action : MouseAction) (cursor : Point) : Option Point :=
  if action.x.value.isNone && action.y.value.isNone then none
  else some ⟨action.x.resolve cursor.x, action.y.resolve cursor.y⟩

namespace Step

/-- The step for a key that is only named: modifiers are held, all others pressed. -/
def tap (k : Key) : Step := key k (if k.isModifier then .hold else .press)

/-- A step in the notation of action scripts. -/
def render : Step → String
  | text t => "`" ++ t ++ "`"
  | key k .hold => "+" ++ k.name
  | key k .release => "-" ++ k.name
  | key k .press => k.name
  | mouse a =>
    "<" ++ a.x.render ++ "," ++ a.y.render
      ++ (match a.click with | some b => "," ++ b.name | none => "") ++ ">"
  | delay ms => toString ms ++ "ms"

end Step

end SpokenCommand.Script
