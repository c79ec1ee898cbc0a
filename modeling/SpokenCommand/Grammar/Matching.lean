import SpokenCommand.Grammar.Node
import SpokenCommand.Text.Lowercase
/-!
Whether a grammar accepts a list of words.

A POSITION in a list of `n` words is a number from `0` to `n`, the number of words passed.  A node
that starts at a position may end at each of a SET of positions, and a sequence accepts the words
when `n` is among its ends from `0`.  Sets are lists in increasing order, joined by `merge`.

A repeat goes by ROUNDS.  The FRONTIER holds the positions where the rounds so far end, and one more
round moves it by the node once.  From the round on that completes the minimum, every position
reached is an end, and the frontier keeps only positions not SEEN before: whatever follows a position
seen earlier was found from its first visit, with more rounds to spare.  That is why a repeat whose
maximum is in the billions stops as soon as nothing new is reached.
-/

namespace SpokenCommand.Grammar

/-- Put `x` among the positions that follow, where `others` joins those greater than `x` with the
    rest of a list. -/
def mergeHead (x : Nat) (others : List Nat → List Nat) : List Nat → List Nat
  | [] => x :: others []
  | y :: ys =>
    if y < x then y :: mergeHead x others ys
    else if y = x then x :: others ys
    else x :: others (y :: ys)

/-- The union of two sets of positions. -/
def merge (xs ys : List Nat) : List Nat := xs.foldr mergeHead id ys

/-- The union of the sets that `move` leads to from a set of positions. -/
def mergeAll (move : Nat → List Nat) (positions : List Nat) : List Nat :=
  positions.foldr (fun p others => merge (move p) others) []

/-- The ends of a repeat of at least `least` rounds of `once`, after `count` rounds, with at most
    `left` more to come. -/
def rounds (least : Nat) (once : Nat → List Nat) :
    (left count : Nat) → (seen frontier ends : List Nat) → List Nat
  | 0, _, _, _, ends => ends
  | left + 1, count, seen, frontier, ends =>
    if frontier.isEmpty then ends
    else
      let next := mergeAll once frontier
      if least ≤ count + 1 then
        let fresh := next.filter fun p => !seen.contains p
        rounds least once left (count + 1) (merge seen fresh) fresh (merge ends next)
      else rounds least once left (count + 1) seen next ends

/-- Where a node ends that starts at a position, moves by `once` and may occur as often as `r`
    says. -/
def Repeat.ends (r : Repeat) (once : Nat → List Nat) (start : Nat) : List Nat :=
  rounds r.min once r.max 0 [] [start] (if r.min = 0 then [start] else [])

/-- Past one word that reads `text`. -/
def pastWord (words : List String) (text : String) (start : Nat) : List Nat :=
  if words[start]? = some text then [start + 1] else []

/-- Past any run of one or more words. -/
def pastSpan (words : List String) (start : Nat) : List Nat :=
  List.range' (start + 1) (words.length - start)

namespace Node

mutual

/-- Where a node may end that starts at a position.  The words are in lowercase. -/
def ends (words : List String) : Node → Nat → List Nat
  | literal text r, start => r.ends (pastWord words (Text.lowercase text)) start
  | choice alternatives r, start => r.ends (endsAny words alternatives) start
  | dictation, start => pastSpan words start
  | wildcard, start => pastSpan words start

/-- Where one of several sequences may end. -/
def endsAny (words : List String) : List (List Node) → Nat → List Nat
  | [], _ => []
  | sequence :: rest, start =>
    merge (endsAll words sequence [start]) (endsAny words rest start)

/-- Where a sequence may end that starts at one of several positions. -/
def endsAll (words : List String) : List Node → List Nat → List Nat
  | [], frontier => frontier
  | node :: rest, frontier => endsAll words rest (mergeAll (node.ends words) frontier)

end

end Node

/-- Whether a grammar accepts a list of words, whatever their letter case. -/
def accepts (sequence : Sequence) (words : List String) : Bool :=
  (Node.endsAll (words.map Text.lowercase) sequence [0]).contains words.length

end SpokenCommand.Grammar
