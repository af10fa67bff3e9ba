import Detour.Text.Basic

/-!
# Camel case

Words that are told apart by capitals, written apart with hyphens: `HTTPServer` becomes
`Http-Server` and `getURL` becomes `get-Url`.

* `settle` makes a run of capitals one capitalised word, or leaves its last capital to the word that
  follows;
* `hyphenate` puts a hyphen before every capital that stands behind a word character.

Capitals and word characters are those of ASCII.
-/

namespace Detour

namespace Camel

/-- The word characters of ASCII. -/
def isWordSign (c : Char) : Bool := c.isAlphanum || c == '_'

/-- A run of capitals in front of the character `next`: the first stays, the last stays if a word
goes on behind the run, and the others become small. -/
def settle (run : Text) (next : Option Char) : Text :=
  match run with
  | [] => []
  | first :: rest =>
    if next.any isWordSign then
      first :: (rest.dropLast.map Char.toLower ++ rest.getLast?.toList)
    else first :: rest.map Char.toLower

/-- Every run of capitals settled; `run` is the run read so far, in reverse. -/
def settleFrom (run : Text) : Text → Text
  | [] => settle run.reverse none
  | c :: s =>
    if c.isUpper then settleFrom (c :: run) s
    else settle run.reverse (some c) ++ c :: settleFrom [] s

/-- A hyphen before every capital that stands behind a word character; `before` is the character
before the text. -/
def hyphenate (before : Option Char) : Text → Text
  | [] => []
  | c :: s =>
    let gap := if c.isUpper && before.any isWordSign then ['-'] else []
    gap ++ c :: hyphenate (some c) s

/-- The words of a text written apart. -/
def spread (s : Text) : Text := hyphenate none (settleFrom [] s)

example : spread "HTTPServer".toList = "Http-Server".toList := by decide
example : spread "getURL".toList = "get-Url".toList := by decide

end Camel

end Detour
