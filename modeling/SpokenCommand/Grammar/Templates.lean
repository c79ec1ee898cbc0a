import SpokenCommand.Grammar.Error
import SpokenCommand.Grammar.Node
import SpokenCommand.Notice
import SpokenCommand.Ordered
import SpokenCommand.Text.Ascii
import SpokenCommand.Text.Lowercase
/-!
Named grammar templates.

A template is a sequence that grammars refer to as `$name`.  Names do not depend on letter case: a
template is filed under its lowercase name.  The two BUILT-IN templates, dictation and wildcard,
are always present and cannot be replaced; any other may be, with a notice.
-/

namespace SpokenCommand.Grammar

/-- The templates known at some point, each under its lowercase name. -/
structure Templates where
  entries : List (String × Sequence)
deriving BEq, Repr

namespace Templates

/-- The built-in name of free dictation. -/
def dictateName : String := "dictate"

/-- The built-in name of the wildcard. -/
def wildcardName : String := "wildcard"

/-- The context that holds the built-in templates only. -/
def builtin : Templates := ⟨[(dictateName, [.dictation]), (wildcardName, [.wildcard])]⟩

/-- Whether a name, in any mixture of ASCII capitals and small letters, is built in. -/
def isReserved (name : String) : Bool :=
  Text.lowerAscii name == dictateName || Text.lowerAscii name == wildcardName

/-- The template filed under a name, whatever its letter case. -/
def lookup (templates : Templates) (name : String) : Option Sequence :=
  templates.entries.lookup (Text.lowercase name)

/-- File a template under a name, and notice it when the name was taken. -/
def define (templates : Templates) (name : String) (template : Sequence) :
    Except Error (Templates × List Notice) :=
  let key := Text.lowercase name
  if isReserved key then .error (.reservedName key)
  else
    .ok (⟨Ordered.put key template templates.entries⟩,
      if (templates.entries.lookup key).isSome then [.templateOverwritten key] else [])

/-- Two contexts with the same templates under the same names. -/
def sameAs (a b : Templates) : Bool :=
  a.entries.length == b.entries.length
    && a.entries.all fun (name, template) => b.entries.lookup name == some template

end Templates

end SpokenCommand.Grammar
