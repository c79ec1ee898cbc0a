/-!
Compiled grammars.

A grammar is a SEQUENCE of nodes, matched one after another against the words of a phrase.  A node
is a literal word, a choice between sequences, or one of the two open nodes, dictation and wildcard,
that stand for any run of one or more words.  Literals and choices carry a REPEAT, the range of how
often they may occur in a row; an optional group is a choice whose repeat starts at zero.

`Node.isValid` is the structural invariant that the parser establishes: no literal is empty, every
repeat can be met, no choice is without alternatives and no alternative is empty.
-/

namespace SpokenCommand.Grammar

/-- The inclusive range of how often a node may occur in a row. -/
structure Repeat where
  min : Nat
  max : Nat
deriving DecidableEq, Repr

namespace Repeat

/-- The upper end of `+` and `*` on a word or a reference. -/
def unbounded : Nat := 4294967295

/-- The upper end of `+` and `*` on a group. -/
def groupMax : Nat := 1000

/-- Exactly once. -/
def once : Repeat := ⟨1, 1⟩

/-- Once or not at all. -/
def optional : Repeat := ⟨0, 1⟩

/-- Whether the range admits at least one occurrence. -/
def isValid (r : Repeat) : Bool := decide (r.min ≤ r.max) && decide (1 ≤ r.max)

end Repeat

/-- One element of a compiled grammar. -/
inductive Node where
  | /-- A fixed word. -/
    literal (text : String) (repeats : Repeat)
  | /-- One of several sequences. -/
    choice (alternatives : List (List Node)) (repeats : Repeat)
  | /-- Free speech: one or more words. -/
    dictation
  | /-- Any utterance: one or more words. -/
    wildcard
deriving BEq, Repr

/-- Nodes matched one after another. -/
abbrev Sequence := List Node

namespace Node

/-- How often a node may occur in a row; the open nodes always occur once. -/
def repeats : Node → Repeat
  | literal _ r => r
  | choice _ r => r
  | dictation => .once
  | wildcard => .once

/-- An optional group. -/
def optional (alternatives : List Sequence) : Node := choice alternatives .optional

mutual

/-- The structural invariant of a node, at every depth. -/
def isValid : Node → Bool
  | literal text r => !text.isEmpty && r.isValid
  | choice alternatives r => r.isValid && !alternatives.isEmpty && areValid alternatives
  | dictation => true
  | wildcard => true

/-- The structural invariant of the alternatives of a choice. -/
def areValid : List (List Node) → Bool
  | [] => true
  | sequence :: rest => !sequence.isEmpty && allValid sequence && areValid rest

/-- The structural invariant of every node of a sequence. -/
def allValid : List Node → Bool
  | [] => true
  | node :: rest => node.isValid && allValid rest

end

end Node

end SpokenCommand.Grammar
