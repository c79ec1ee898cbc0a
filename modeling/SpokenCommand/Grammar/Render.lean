import SpokenCommand.Grammar.Node
/-!
Grammars as source.

`render` writes a sequence of nodes in the notation that the parser reads.  A repeat is written by
the mark that comes nearest to it: the notation has no bounds of its own, so a group that may occur
any number of times, or not at all, is written as an optional group.
-/

namespace SpokenCommand.Grammar

namespace Node

/-- The mark after a word. -/
def wordMark (r : Repeat) : String :=
  if r.max > 1 then (if r.min = 0 then "*" else "+") else ""

/-- The mark after a group. -/
def groupMark (r : Repeat) : String :=
  if r.min > 0 && r.max > 1 then "+" else ""

mutual

/-- A node as source. -/
def render : Node → String
  | literal text r => text ++ wordMark r
  | choice alternatives r =>
    (if r.min = 0 then "[" else "(") ++ renderAlternatives alternatives
      ++ (if r.min = 0 then "]" else ")") ++ groupMark r
  | dictation => "$dictate"
  | wildcard => "$wildcard"

/-- The alternatives of a choice, with a bar between each two. -/
def renderAlternatives : List (List Node) → String
  | [] => ""
  | [sequence] => renderAll sequence
  | sequence :: rest => renderAll sequence ++ " | " ++ renderAlternatives rest

/-- The nodes of a sequence, with a space between each two. -/
def renderAll : List Node → String
  | [] => ""
  | [node] => node.render
  | node :: rest => node.render ++ " " ++ renderAll rest

end

theorem renderAlternatives_cons_cons (first second : List Node) (rest : List (List Node)) :
    renderAlternatives (first :: second :: rest) =
      renderAll first ++ " | " ++ renderAlternatives (second :: rest) := rfl

theorem renderAll_cons_cons (first second : Node) (rest : List Node) :
    renderAll (first :: second :: rest) = first.render ++ " " ++ renderAll (second :: rest) := rfl

end Node

/-- A sequence as source. -/
def render (sequence : Sequence) : String := Node.renderAll sequence

end SpokenCommand.Grammar
