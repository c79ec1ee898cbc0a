import SpokenCommand.Grammar.Matching
import SpokenCommand.Text.Blank
/-!
The recognizer: loaded grammars that are switched on and off.

All grammars are loaded up front and start disabled.  A phrase is recognized as the FIRST enabled
grammar, in the order of loading, that accepts its words; a blank phrase is never recognized.
-/

namespace SpokenCommand

/-- A grammar known to the recognizer. -/
structure LoadedGrammar where
  id : Nat
  grammar : Grammar.Sequence
  isEnabled : Bool

/-- The loaded grammars, in the order of loading. -/
structure Recognizer where
  grammars : List LoadedGrammar

namespace Recognizer

/-- Nothing is loaded. -/
def empty : Recognizer := ⟨[]⟩

/-- Load a grammar, disabled. -/
def load (r : Recognizer) (id : Nat) (grammar : Grammar.Sequence) : Recognizer :=
  ⟨r.grammars ++ [⟨id, grammar, false⟩]⟩

/-- The grammars with the first of a number switched on or off. -/
def setFirst (id : Nat) (isEnabled : Bool) : List LoadedGrammar → List LoadedGrammar
  | [] => []
  | g :: rest =>
    if g.id = id then { g with isEnabled } :: rest else g :: setFirst id isEnabled rest

/-- Switch a grammar on or off; a number that is not loaded is passed over. -/
def setEnabled (r : Recognizer) (id : Nat) (isEnabled : Bool) : Recognizer :=
  ⟨setFirst id isEnabled r.grammars⟩

/-- Switch several grammars on or off. -/
def setAllEnabled (r : Recognizer) (ids : List Nat) (isEnabled : Bool) : Recognizer :=
  ids.foldl (fun r id => r.setEnabled id isEnabled) r

/-- Whether a grammar of this number is on. -/
def isEnabled (r : Recognizer) (id : Nat) : Bool :=
  r.grammars.any fun g => g.id == id && g.isEnabled

/-- The grammars that are on, in the order of loading. -/
def enabled (r : Recognizer) : List Nat := (r.grammars.filter (·.isEnabled)).map (·.id)

/-- The first grammar that is on and accepts the words of a phrase. -/
def recognize (r : Recognizer) (phrase : String) : Option Nat :=
  match Text.words phrase with
  | [] => none
  | words =>
    (r.grammars.find? fun g => g.isEnabled && Grammar.accepts g.grammar words).map (·.id)

end Recognizer

end SpokenCommand
