/-!
Tokens of grammar source.

A grammar is written on one line.  Spaces and tabs separate words; the eight symbols
`[ ] ( ) + * | $` always stand alone, whatever surrounds them; every other character is part of a
word.  Control characters belong to no token.

`tokensFrom` needs no rule for failure: the source is searched for a control character first, and a
source without one always splits.
-/

namespace SpokenCommand.Grammar

/-- The two kinds of brackets: `[ ]` and `( )`. -/
inductive Bracket where
  | optional
  | group
deriving DecidableEq, Repr

/-- The two marks of repetition: `+` and `*`. -/
inductive Mark where
  | plus
  | star
deriving DecidableEq, Repr

/-- A token of grammar source. -/
inductive Token where
  | word (text : String)
  | opening (bracket : Bracket)
  | closing (bracket : Bracket)
  | mark (mark : Mark)
  | pipe
  | dollar
deriving DecidableEq, Repr

/-- The character that opens a bracket. -/
def Bracket.openingChar : Bracket → Char
  | optional => '['
  | group => '('

/-- The character that closes a bracket. -/
def Bracket.closingChar : Bracket → Char
  | optional => ']'
  | group => ')'

/-- The character of a mark. -/
def Mark.char : Mark → Char
  | plus => '+'
  | star => '*'

namespace Token

/-- A token as it is written. -/
def text : Token → String
  | word text => text
  | opening b => String.singleton b.openingChar
  | closing b => String.singleton b.closingChar
  | mark m => String.singleton m.char
  | pipe => "|"
  | dollar => "$"

/-- Whether a token is one of the marks `+` and `*`. -/
def isMark : Token → Bool
  | mark _ => true
  | _ => false

/-- The token that a symbol stands for. -/
def ofSymbol? (c : Char) : Option Token :=
  if c = '[' then some (opening .optional)
  else if c = ']' then some (closing .optional)
  else if c = '(' then some (opening .group)
  else if c = ')' then some (closing .group)
  else if c = '+' then some (mark .plus)
  else if c = '*' then some (mark .star)
  else if c = '|' then some pipe
  else if c = '$' then some dollar
  else none

end Token

/-- Whether a character separates words of grammar source. -/
def isSeparator (c : Char) : Bool := c = ' ' || c = '\t'

/-- Whether a character is a control character other than the tab, and so part of no token. -/
def isControl (c : Char) : Bool :=
  (c.toNat < 0x20 || (0x7f ≤ c.toNat && c.toNat ≤ 0x9f)) && c ≠ '\t'

/-- The first control character of a source, with its offset in bytes from `offset` on. -/
def findControl (offset : Nat) : List Char → Option (Char × Nat)
  | [] => none
  | c :: rest => if isControl c then some (c, offset) else findControl (offset + c.utf8Size) rest

/-- The word read so far, if it has begun. -/
def pendingWord (word : List Char) : List Token :=
  if word.isEmpty then [] else [.word (String.ofList word)]

/-- The tokens of the characters that follow `word`, the part of a word already read. -/
def tokensFrom (word : List Char) : List Char → List Token
  | [] => pendingWord word
  | c :: rest =>
    if isSeparator c then pendingWord word ++ tokensFrom [] rest
    else
      match Token.ofSymbol? c with
      | some token => pendingWord word ++ token :: tokensFrom [] rest
      | none => tokensFrom (word ++ [c]) rest

end SpokenCommand.Grammar
