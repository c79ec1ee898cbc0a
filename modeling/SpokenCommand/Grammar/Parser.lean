import SpokenCommand.Grammar.Templates
/-!
Grammar source to grammar.

The notation, with `sequence` at the top:

    sequence := element+
    element  := word mark?
              | '(' sequence ('|' sequence)* ')' mark?
              | '[' sequence ('|' sequence)* ']'
              | '$' word mark?
    mark     := '+' | '*'

The parser reads the tokens ONCE, from left to right, with the brackets that are still open on a
stack.  Beside the stack it holds the nodes of the sequence that is being read and the index of the
next token.  At most two tokens of lookahead decide every step, so the recursion is on the list of
tokens itself.

A failure says where the parser stopped, which `diagnostic` marks with a caret under the listing of
the tokens.
-/

namespace SpokenCommand.Grammar

/-- An open bracket: the nodes before it, and its alternatives read so far. -/
structure Frame where
  bracket : Bracket
  before : Sequence
  alternatives : List Sequence

/-- Why a list of tokens is no grammar, and the index that the parser had reached. -/
structure Failure where
  error : Error
  stop : Nat
deriving DecidableEq, Repr

/-- The repeat that a mark stands for. -/
def Mark.repeats (max : Nat) : Mark → Repeat
  | plus => ⟨1, max⟩
  | star => ⟨0, max⟩

/-- A template that is repeated as a whole.  A single literal or choice takes the repeat itself; any
    other template becomes the only alternative of a group. -/
def repeatTemplate (template : Sequence) (r : Repeat) : Sequence :=
  match template with
  | [.literal text _] => [.literal text r]
  | [.choice alternatives _] => [.choice alternatives r]
  | _ => [.choice [template] r]

/-- Whether a template can take a mark: its first node, if any, must occur exactly once. -/
def isRepeatable (template : Sequence) : Bool :=
  match template with
  | [] => true
  | node :: _ => node.repeats = .once

/-- The rest of the tokens, read inside the brackets `frames` (innermost first) after the `nodes` of
    the current sequence, where `i` is the index of the next token. -/
def parseFrom (templates : Templates) (frames : List Frame) (nodes : Sequence) (i : Nat) :
    List Token → Except Failure Sequence
  | [] =>
    if nodes.isEmpty then .error ⟨.emptySequence i, i⟩
    else
      match frames with
      | [] => .ok nodes
      | frame :: _ => .error ⟨.unclosed frame.bracket, i⟩
  | .word text :: .mark m :: rest =>
    parseFrom templates frames (nodes ++ [.literal text (m.repeats Repeat.unbounded)]) (i + 2) rest
  | .word text :: rest =>
    parseFrom templates frames (nodes ++ [.literal text .once]) (i + 1) rest
  | .mark m :: _ => .error ⟨.danglingMark m i, i⟩
  | .opening b :: rest =>
    match rest with
    | [] => .error ⟨.unclosed b, i + 1⟩
    | .pipe :: _ => .error ⟨.leadingPipe (i + 1), i + 1⟩
    | rest => parseFrom templates (⟨b, nodes, []⟩ :: frames) [] (i + 1) rest
  | .pipe :: rest =>
    if nodes.isEmpty then .error ⟨.emptySequence i, i⟩
    else
      match frames, rest with
      | [], _ => .error ⟨.unexpectedToken .pipe i, i⟩
      | frame :: _, [] => .error ⟨.unclosed frame.bracket, i + 1⟩
      | frame :: outer, rest =>
        parseFrom templates (⟨frame.bracket, frame.before, frame.alternatives ++ [nodes]⟩ :: outer)
          [] (i + 1) rest
  | .closing b :: rest =>
    if nodes.isEmpty then .error ⟨.emptySequence i, i⟩
    else
      match frames with
      | [] => .error ⟨.unexpectedToken (.closing b) i, i⟩
      | frame :: outer =>
        if b ≠ frame.bracket then .error ⟨.unexpectedToken (.closing b) i, i + 1⟩
        else
          match b, rest with
          | .optional, .mark _ :: _ => .error ⟨.markedOptional (i + 1), i + 1⟩
          | .optional, rest =>
            parseFrom templates outer
              (frame.before ++ [.optional (frame.alternatives ++ [nodes])]) (i + 1) rest
          | .group, .mark m :: rest =>
            parseFrom templates outer
              (frame.before ++ [.choice (frame.alternatives ++ [nodes]) (m.repeats Repeat.groupMax)])
              (i + 2) rest
          | .group, rest =>
            parseFrom templates outer
              (frame.before ++ [.choice (frame.alternatives ++ [nodes]) .once]) (i + 1) rest
  | .dollar :: .word name :: rest =>
    match templates.lookup name with
    | none => .error ⟨.undefinedName (Text.lowercase name) (i + 1), i + 2⟩
    | some template =>
      match rest with
      | .mark m :: rest =>
        if isRepeatable template then
          parseFrom templates frames (nodes ++ repeatTemplate template (m.repeats Repeat.unbounded))
            (i + 3) rest
        else .error ⟨.markedReference (Text.lowercase name) (i + 2), i + 3⟩
      | rest => parseFrom templates frames (nodes ++ template) (i + 2) rest
  | .dollar :: rest => .error ⟨.missingName (i + 1), if rest.isEmpty then i + 1 else i + 2⟩

/-- The tokens of grammar source. -/
def tokenize (source : String) : Except Error (List Token) :=
  match findControl 0 source.toList with
  | some (c, offset) => .error (.controlCharacter c offset)
  | none => .ok (tokensFrom [] source.toList)

/-- The grammar that a non-empty list of tokens stands for. -/
def parseTokens (templates : Templates) (tokens : List Token) : Except Failure Sequence :=
  parseFrom templates [] [] 0 tokens

/-- The grammar of a source, with references resolved in `templates`. -/
def parse (templates : Templates) (source : String) : Except Error Sequence :=
  match tokenize source with
  | .error e => .error e
  | .ok [] => .error .empty
  | .ok tokens =>
    match parseTokens templates tokens with
    | .error failure => .error failure.error
    | .ok sequence => .ok sequence

/-- The tokens in order, each followed by a space. -/
def listing (tokens : List Token) : String := String.join (tokens.map fun t => t.text ++ " ")

/-- The line that puts a caret under the token at index `stop`. -/
def caretLine (tokens : List Token) (stop : Nat) : String :=
  String.ofList ((tokens.take stop).flatMap fun t => List.replicate (t.text.length + 1) ' ') ++ "^"

/-- Where a source that has tokens stops being a grammar: two lines, the listing of the tokens and a
    caret. -/
def diagnostic (templates : Templates) (source : String) : Option String :=
  match tokenize source with
  | .error _ => none
  | .ok [] => none
  | .ok tokens =>
    match parseTokens templates tokens with
    | .error failure => some (listing tokens ++ "\n" ++ caretLine tokens failure.stop)
    | .ok _ => none

/-- Compile a source and file it as a template.  A reserved name is refused before the source is
    looked at. -/
def Templates.defineSource (templates : Templates) (name source : String) :
    Except Error (Templates × List Notice) :=
  if isReserved name then .error (.reservedName (Text.lowercase name))
  else
    match parse templates source with
    | .error e => .error e
    | .ok template => templates.define name template

end SpokenCommand.Grammar
