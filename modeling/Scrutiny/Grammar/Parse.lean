import Scrutiny.Grammar.Python
import Scrutiny.Grammar.Rust
import Scrutiny.Grammar.Script
import Scrutiny.Language

/-!
# Reading a source file

The syntax tree of a text in each of the languages.
-/

namespace Scrutiny.Grammar

/-- The tree of a text, or the furthest offset at which a token was missed. -/
def parse (language : Language) (text : Array Char) : Except Nat Tree :=
  match language with
  | .python => Pattern.tree Python.rules Python.file text
  | .javascript => Pattern.tree (Script.rules Script.untyped) Script.file text
  | .typescript => Pattern.tree (Script.rules Script.typed) Script.file text
  | .tsx => Pattern.tree (Script.rules Script.typedMarkup) Script.file text
  | .rust => Pattern.tree Rust.rules Rust.file text
  | .unknown => .error 0

end Scrutiny.Grammar
