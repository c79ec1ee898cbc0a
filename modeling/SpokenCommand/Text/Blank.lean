import SpokenCommand.Text.CodeRanges
/-!
Blanks, and the words between them.

A spoken phrase is a text whose WORDS are separated by blanks: the characters with the Unicode
property White_Space, which are the ASCII blanks together with the no-break and typographic spaces
and the line and paragraph separators.
-/

namespace SpokenCommand.Text

/-- The characters with property White_Space. -/
def whiteSpace : CodeRanges := ⟨[
  (0x9, 0xd), (0x20, 0x20), (0x85, 0x85), (0xa0, 0xa0), (0x1680, 0x1680), (0x2000, 0x200a),
  (0x2028, 0x2029), (0x202f, 0x202f), (0x205f, 0x205f), (0x3000, 0x3000)]⟩

/-- Whether a character separates words. -/
def isBlank (c : Char) : Bool := whiteSpace.contains c

/-- The text without the blanks at its ends. -/
def trim (text : String) : String :=
  String.ofList (((text.toList.dropWhile isBlank).reverse.dropWhile isBlank).reverse)

/-- The words of the characters that follow `word`, the part of a word already read. -/
def wordsFrom (word : List Char) : List Char → List (List Char)
  | [] => if word.isEmpty then [] else [word]
  | c :: rest =>
    if isBlank c then (if word.isEmpty then wordsFrom [] rest else word :: wordsFrom [] rest)
    else wordsFrom (word ++ [c]) rest

/-- The words of a text: its maximal runs of characters that are not blank. -/
def words (text : String) : List String := (wordsFrom [] text.toList).map String.ofList

theorem wordsFrom_eq_nil {word cs : List Char} :
    wordsFrom word cs = [] ↔ word = [] ∧ ∀ c ∈ cs, isBlank c = true := by
  induction cs generalizing word with
  | nil => simp [wordsFrom]
  | cons c rest ih =>
    rw [wordsFrom, List.forall_mem_cons]
    by_cases hc : isBlank c = true
    · cases word with
      | nil => simp [hc, ih]
      | cons first others => simp [hc]
    · simp [hc, ih]

/-- A text without words is a text of blanks. -/
theorem words_eq_nil {text : String} : words text = [] ↔ text.toList.all isBlank = true := by
  rw [words, List.map_eq_nil_iff, wordsFrom_eq_nil, List.all_eq_true]
  simp

end SpokenCommand.Text
