/-!
# Measures of a text

An estimate of the tokens that a model reads a text as, and cutting a text at a number of
characters.
-/

namespace Scrutiny.Text

/-- A rough number of tokens: one for four characters of ASCII, and two for any other. -/
def estimateTokens (text : String) : Nat :=
  let chars := text.toList
  let ascii := chars.countP (·.toNat < 128)
  ascii / 4 + (chars.length - ascii) * 2

/-- The text if it has at most `limit` characters, else its first ones and a note on how many
are left out. -/
def truncate (text : String) (limit : Nat) : String :=
  let chars := text.toList
  if chars.length ≤ limit then text
  else
    String.ofList (chars.take limit) ++ "\n... (truncated: " ++ toString (chars.length - limit)
      ++ " chars omitted)"

end Scrutiny.Text
