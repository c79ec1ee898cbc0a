import SpokenCommand.Activation
import SpokenCommand.Playback.Worker
import SpokenCommand.Session.Number
import SpokenCommand.Text.Capital
/-!
What a function makes of the words of a phrase.

`interpret` turns a function and the words that it was called by into a REQUEST to the session, and
does nothing itself.  Words count from zero; the first ones name the command.  A phrase that a
function can make nothing of is an error, and then nothing is requested.
-/

namespace SpokenCommand.Session

open Script Playback

/-- Something that a session is asked to do. -/
inductive Request where
  | setMuted (muted : Bool)
  | changeMode (name : String)
  | exitMode
  | /-- Leave the current mode and enter another child of the mode below it. -/
    switchSibling (name : String)
  | enterExclusive (mode : String)
  | exitExclusive
  | /-- Load the definitions again when everything else is done. -/
    reload
  | /-- Play the remembered steps some more times. -/
    repeatLast (times : Nat)
  | /-- Play steps without remembering them. -/
    play (steps : List Step)
  | /-- Play steps and remember them. -/
    playAndRemember (steps : List Step)
  | /-- Make known where the cursor is. -/
    reportCursor
deriving DecidableEq, Repr

/-- Why a function fails. -/
inductive FunctionError where
  | missingWord (index : Nat)
  | unknownMode (name : String)
  | unknownDirection (word : String)
  | unknownSymbol (word : String)
  | unknownGridSection (word : String)
  | overlay (cause : OverlayError)
  | playback (cause : Refusal)
deriving DecidableEq, Repr

/-- The wording of an error. -/
def FunctionError.message : FunctionError → String
  | missingWord index => s!"phrase has no word at position {index}"
  | unknownMode name => s!"no mode named `{name}`"
  | unknownDirection word => s!"unknown direction `{word}`"
  | unknownSymbol word => s!"unknown symbol `{word}`"
  | unknownGridSection word => s!"unknown mouse grid section `{word}`"
  | overlay cause => cause.message
  | playback cause => cause.message

/-- A request, and the notices on the way to it. -/
structure Interpretation where
  request : Request
  notices : List Notice := []

/-- The result of interpreting a phrase. -/
abbrev Interpreted := Except FunctionError Interpretation

/-- Request something without notices. -/
def ask (request : Request) : Interpreted := .ok { request }

/-- The word at an index. -/
def wordAt (words : List String) (index : Nat) : Except FunctionError String :=
  match words[index]? with
  | some word => .ok word
  | none => .error (.missingWord index)

/-! ## Text -/

/-- Request that a text be typed; nothing if it is empty. -/
def type (text : String) : Interpreted := ask (.play (if text.isEmpty then [] else [.text text]))

/-- The initial of a word. -/
def initial (isCapital : Bool) (word : String) : List Char :=
  match word.toList with
  | [] => []
  | first :: _ => if isCapital then Text.uppercaseChar first else [first]

/-- The initials of words.  The word `capital` is not spelled and makes the next initial one. -/
def spell (isCapital : Bool) : List String → List Char
  | [] => []
  | word :: rest =>
    if word = "capital" then spell true rest else initial isCapital word ++ spell false rest

/-- The symbol of a name, and whether the cursor goes back between the two halves of it. -/
def symbol? : String → Option (String × Bool)
  | "array" => some ("[]", false)
  | "index" => some ("[]", true)
  | "generic" => some ("<>", true)
  | "paren" => some ("()", false)
  | "braces" => some ("\x7b\x7d", false)
  | "and" => some ("&&", false)
  | "or" => some ("||", false)
  | "not" => some ("!", false)
  | "complement" => some ("~", false)
  | "plus" => some ("+", false)
  | "minus" => some ("-", false)
  | "star" => some ("*", false)
  | "divide" => some ("/", false)
  | "comma" => some (",", false)
  | "percent" => some ("%", false)
  | "backslash" => some ("\\", false)
  | "colon" => some (":", false)
  | "pipe" => some ("|", false)
  | "caret" => some ("^", false)
  | _ => none

/-- The symbol that the words ask for.  With three words it is one of the operators `&` and `|`. -/
def emitSymbol (words : List String) : Interpreted :=
  match words with
  | [_, _, word] => type (if word = "and" then "&" else "|")
  | _ => do
    let name ← wordAt words 1
    match symbol? name with
    | none => throw (.unknownSymbol name)
    | some (symbol, goesBack) =>
      ask (.play (.text symbol :: if goesBack then [.tap .left] else []))

/-! ## Counts -/

/-- The largest count that is played or pressed. -/
def maxCount : Nat := 100

/-- A count cut down to the largest one, with a notice if it was larger. -/
def capCount (function : Builtin) (count : Nat) : Nat × List Notice :=
  (min count maxCount,
    if count > maxCount then [.countCapped function.name count maxCount] else [])

/-- As many more times as make the number of the phrase; not at all without a number. -/
def repeatAction (words : List String) : Interpreted :=
  match readLastNumber words with
  | none => ask (.repeatLast 0)
  | some times =>
    let (count, notices) := capCount .repeatAction times
    .ok ⟨.repeatLast (count - 1), notices⟩

/-- Down a list by the number of the phrase, and choose. -/
def chooseOffset (words : List String) : Interpreted :=
  let (count, notices) := capCount .chooseOffset (readNumber words 1).1
  .ok ⟨.play (List.replicate count (.tap .down) ++ [.tap .enter]), notices⟩

/-- Through the windows by the number of the phrase, by one without a number. -/
def changeWindow (words : List String) : Interpreted :=
  let (count, notices) := capCount .changeWindow ((readLastNumber words).getD 1)
  .ok ⟨.play ([.key .alt .hold, .delay 50]
    ++ (List.replicate count [Step.tap .tab, .delay 50]).flatten ++ [.key .alt .release]), notices⟩

/-! ## Mouse -/

/-- The vertical direction of a word. -/
def vertical? : String → Option Int
  | "up" => some (-1)
  | "down" => some 1
  | _ => none

/-- The horizontal direction of a word. -/
def horizontal? : String → Option Int
  | "left" => some (-1)
  | "right" => some 1
  | _ => none

/-- Move the cursor by a number of pixels, in one direction or, if the vertical one comes first, in
    two. -/
def mouseMove (words : List String) : Interpreted := do
  let first ← wordAt words 1
  let vertical := vertical? first
  let horizontal := if vertical.isSome then words[2]?.bind horizontal? else horizontal? first
  if vertical.isNone && horizontal.isNone then throw (.unknownDirection first)
  let start := if vertical.isSome && horizontal.isSome then 3 else 2
  let amount : Int := min (readNumber words start).1 Text.maxInt32
  ask (.play [.mouse
    ⟨⟨some (horizontal.getD 0 * amount), false⟩, ⟨some (vertical.getD 0 * amount), false⟩, none⟩])

/-- A click where the cursor is. -/
def clickHere (button : Button) : Step := .mouse ⟨⟨none, true⟩, ⟨none, true⟩, some button⟩

/-- A click, which the second word makes one of the right button or a double one. -/
def mouseClick (words : List String) : Interpreted :=
  match words[1]? with
  | some "right" => ask (.play [clickHere .right])
  | some _ => ask (.play [clickHere .left, .delay 100, clickHere .left])
  | none => ask (.play [clickHere .left])

/-- A part of the screen. -/
structure Rectangle where
  x : Int
  y : Int
  width : Int
  height : Int
deriving DecidableEq, Repr

namespace Rectangle

/-- The quarter of a rectangle that a word names: `one` and `two` are above `three` and `four`. -/
def quarter? (r : Rectangle) (word : String) : Option Rectangle :=
  let width := r.width.tdiv 2
  let height := r.height.tdiv 2
  match word with
  | "one" => some ⟨r.x, r.y, width, height⟩
  | "two" => some ⟨r.x + width, r.y, width, height⟩
  | "three" => some ⟨r.x, r.y + height, width, height⟩
  | "four" => some ⟨r.x + width, r.y + height, width, height⟩
  | _ => none

/-- The quarter of the quarter … that a list of words names. -/
def narrow (r : Rectangle) : List String → Except FunctionError Rectangle
  | [] => .ok r
  | word :: rest =>
    match r.quarter? word with
    | none => .error (.unknownGridSection word)
    | some quarter => quarter.narrow rest

/-- The middle of a rectangle. -/
def center (r : Rectangle) : Point := ⟨r.x + r.width.tdiv 2, r.y + r.height.tdiv 2⟩

end Rectangle

/-- Put the cursor into the middle of the part of the screen that the words name. -/
def mouseGrid (screen : Size) (words : List String) : Interpreted := do
  let part ← Rectangle.narrow ⟨0, 0, screen.width, screen.height⟩ (words.drop 1)
  let center := part.center
  ask (.play [.mouse ⟨⟨some center.x, true⟩, ⟨some center.y, true⟩, none⟩])

/-! ## All functions -/

/-- The steps that ask an editor for a line and answer it. -/
def goToLine (line : Nat) : List Step :=
  [.key .control .hold, .tap (.letter 6), .key .control .release, .delay 500,
    .text (toString line), .tap .enter]

/-- What a function makes of the words of a phrase, on a screen of a given size. -/
def interpret (screen : Size) (words : List String) : Builtin → Interpreted
  | .voiceCodeMute => do ask (.setMuted ((← wordAt words 2) != "start"))
  | .changeMode => do ask (.changeMode (← wordAt words 2))
  | .exitMode => ask .exitMode
  | .switchSiblingMode => do ask (.switchSibling (← wordAt words 2))
  | .enterExclusiveMode => do ask (.enterExclusive (← wordAt words (words.length - 1)))
  | .exitExclusiveMode => ask .exitExclusive
  | .reloadDefinitions => ask .reload
  | .repeatAction => repeatAction words
  | .emitDictation => type (" ".intercalate (words.drop 1))
  | .emitSpelledWord => type (String.ofList (spell false (words.drop 1)))
  | .emitKeys =>
    match words.filterMap Key.ofName? with
    | [] => ask (.play [])
    | keys => ask (.playAndRemember (keys.map .tap))
  | .emitCamelCase => do
    type ((← wordAt words 1) ++ String.join ((words.drop 2).map Text.capitalize))
  | .emitPascalCase => type (String.join ((words.drop 1).map Text.capitalize))
  | .emitInteger => type (toString (readInteger words 1).1)
  | .mouseMove => mouseMove words
  | .mouseClick => mouseClick words
  | .mouseGrid => mouseGrid screen words
  | .printMouseCoordinates => ask .reportCursor
  | .goToLine => ask (.play (goToLine (readNumber words 3).1))
  | .changeModeNavigate => ask (.changeMode "navigate")
  | .symbolEmit => emitSymbol words
  | .emitKeyword => do type (← wordAt words 1)
  | .emitPrimitive => do
    let first ← wordAt words 1
    if first = "you" then type ("u" ++ (← wordAt words 2)) else type first
  | .createNewFieldOrMethod => type (" ".intercalate (words.drop 1) ++ " ")
  | .chooseOffset => chooseOffset words
  | .emitStringLiteral => ask (.play [.text "\"\"", .tap .left])
  | .emitStringInterpolation => ask (.play [.text "$\"\"", .tap .left])
  | .changeWindow => changeWindow words

end SpokenCommand.Session
