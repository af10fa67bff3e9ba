import Detour.Text.Category
import Detour.Text.Folding
import Detour.Text.Word

/-!
# Sets of characters

The characters that one place of an expression accepts. Expressions ignore letter case, and so does
every set: a single character stands for its whole orbit, and a range accepts a character as soon as
some character of its orbit lies in it. Complements are taken after that, so a complement never
accepts one case variant of a letter and refuses another.
-/

namespace Detour

/-- A set of characters, closed under change of letter case. -/
inductive CharSet where
  /-- no character -/
  | nothing
  /-- the case variants of one character -/
  | char (c : Char)
  /-- the case variants of the characters from `lo` to `hi` -/
  | range (lo hi : Char)
  /-- the decimal digits -/
  | digit
  /-- white space -/
  | blank
  /-- the word characters -/
  | word
  /-- the case variants of a general category -/
  | category (k : Category)
  /-- what either set has -/
  | union (a b : CharSet)
  /-- what both sets have -/
  | both (a b : CharSet)
  /-- what the first set has and the second has not -/
  | except (a b : CharSet)
  /-- what exactly one of the sets has -/
  | oneOf (a b : CharSet)
  /-- what the set has not -/
  | not (a : CharSet)
deriving Repr, DecidableEq

namespace CharSet

/-- Whether a set has a character. -/
def has : CharSet → Char → Bool
  | nothing, _ => false
  | char a, c => sameLetter a c
  | range lo hi, c => (orbit c).any fun v => lo ≤ v && v ≤ hi
  | digit, c => isDigit c
  | blank, c => isBlank c
  | word, c => isWord c
  | category k, c => (orbit c).any k.holds
  | union a b, c => a.has c || b.has c
  | both a b, c => a.has c && b.has c
  | except a b, c => a.has c && !b.has c
  | oneOf a b, c => a.has c ^^ b.has c
  | not a, c => !a.has c

/-- All characters but the line feed. -/
def dot : CharSet := .not (.char '\n')

end CharSet

end Detour
