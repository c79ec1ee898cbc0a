/-!
Text compared by ASCII letter case alone.

Key names and the names of the built-in templates are ASCII, and a letter of another script never
stands for one of theirs, even where its lowercase form is an ASCII letter.
-/

namespace SpokenCommand.Text

/-- A text with its ASCII capitals made small. -/
def lowerAscii (text : String) : String := String.ofList (text.toList.map Char.toLower)

end SpokenCommand.Text
