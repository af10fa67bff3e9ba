import Detour.Rewrite.Camel
import Detour.Rewrite.Transliteration
import Detour.Text.Category
import Detour.Text.Percent
import Detour.Text.Piece

/-!
# Cleaning captured values

A value captured from a request path is made fit for a path before it is put into a destination:
escapes are decoded, everything but letters, digits and slashes becomes a hyphen, letters are
transliterated, and the result is lower-cased in the full mode. The enhanced form also writes words
in camel case and numbers apart.
-/

namespace Detour

/-- How captured values are cleaned. -/
inductive CleaningMode where
  /-- not at all -/
  | off
  /-- letter case is kept -/
  | semiClean
  /-- everything is lower-cased -/
  | fullClean
deriving Repr, DecidableEq

namespace CleaningMode

/-- The name of a mode in configurations. -/
def name : CleaningMode → Text
  | off => "off".toList
  | semiClean => "semiClean".toList
  | fullClean => "fullClean".toList

/-- The mode with a name. -/
def ofName? (s : Text) : Option CleaningMode :=
  [off, semiClean, fullClean].find? fun m => m.name = s

end CleaningMode

/-- The configured way to clean values. -/
structure Cleaner where
  /-- what is cleaned -/
  mode : CleaningMode
  /-- whether words and numbers are written apart -/
  enhanced : Bool
  /-- how letters outside ASCII are spelled -/
  [dictionary : Dictionary]

namespace Cleaning

/-- A text with plus signs read as spaces and percent escapes decoded. -/
def decode (s : Text) : Text :=
  Utf8.decodeLossy (percentBytes (s.map fun c => if c = '+' then ' ' else c))

/-- An escape of a code point by three or four digits in base sixteen behind `%u`. -/
def codeForm : Form Text
  | '%' :: u :: s =>
    let digits := (s.take 4).takeWhile isHex
    if (u = 'u' || u = 'U') && 3 ≤ digits.length then some (digits, digits.length + 2) else none
  | _ => none

/-- Escapes of code points written as character references. -/
def references (s : Text) : Text :=
  Text.rewrite codeForm (fun digits => "&#x".toList ++ digits ++ [';']) s

/-- Whether a character survives as it is: letters of any script, digits and slashes. -/
def isKept (c : Char) : Bool := isLetter c || c.isDigit || c == '/'

/-- A run of characters that do not survive. -/
def gapForm (s : Text) : Option (Unit × Nat) :=
  let run := s.takeWhile fun c => !isKept c
  if run.isEmpty then none else some ((), run.length)

/-- Every run of other characters written as one hyphen. -/
def hyphens (s : Text) : Text := Text.rewrite gapForm (fun _ => ['-']) s

/-- A hyphen between any two neighbours of which the first is of one class and the second of
another. -/
def between (p q : Char → Bool) : Text → Text
  | a :: b :: s =>
    if p a && q b then a :: '-' :: between p q (b :: s) else a :: between p q (b :: s)
  | s => s

/-- Letters and digits written apart. -/
def numbersApart (s : Text) : Text :=
  between Char.isDigit Char.isAlpha (between Char.isAlpha Char.isDigit s)

/-- Whether a character may stand in a cleaned value. -/
def isAllowed (c : Char) : Bool := c.isAlphanum || c == '-' || c == '_' || c == '/'

end Cleaning

namespace Cleaner

open Cleaning

/-- The cleaned form of a value, whatever the mode; `lower` makes all letters small. -/
def clean (k : Cleaner) (lower : Bool) (value : Text) : Text :=
  let s := if k.enhanced then Camel.spread value else value
  let s := k.dictionary.spell (hyphens (references (decode s)))
  let s := if k.enhanced then numbersApart s else s
  let s := (Text.trimBoth (· == '-') s).filter isAllowed
  if lower then s.map Char.toLower else s

/-- The form in which a value is put into a destination. -/
def apply (k : Cleaner) (value : Text) : Text :=
  match k.mode with
  | .off => value
  | .semiClean => k.clean false value
  | .fullClean => k.clean true value

end Cleaner

end Detour
