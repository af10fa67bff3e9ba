import Detour.Expr.CharSet

/-!
# Expressions

The expressions that source patterns are compiled to: characters, assertions about a place, sequence,
choice, repetition and groups. A choice prefers its first branch and a repetition prefers another
round, so that the match of an expression in a text is determined.

* `Expr.seqAll` and `Expr.altAll` build sequences and choices from lists;
* an expression that is too large is refused, and `Limits` says how large it may be.
-/

namespace Detour

/-- An assertion about the place between two characters. -/
inductive Edge where
  /-- the beginning of the text -/
  | start
  /-- the end of the text -/
  | stop
  /-- between a word character and another character or an end of the text -/
  | wordEdge
  /-- where there is no word edge -/
  | noWordEdge
  /-- the word edge at the beginning of a word -/
  | wordStart
  /-- the word edge at the end of a word -/
  | wordStop
deriving Repr, DecidableEq

/-- An expression. -/
inductive Expr where
  /-- the empty text -/
  | empty
  /-- one character of a set -/
  | one (set : CharSet)
  /-- an assertion, which takes no character -/
  | edge (e : Edge)
  /-- one expression behind the other -/
  | seq (a b : Expr)
  /-- the first expression or else the second -/
  | alt (a b : Expr)
  /-- at least `lo` and at most `hi` rounds, as many as possible -/
  | rep (lo : Nat) (hi : Option Nat) (a : Expr)
  /-- a group, which captures what it matched if it has a number -/
  | group (number : Option Nat) (a : Expr)
deriving Repr, DecidableEq

namespace Expr

/-- The expressions of a list one behind the other. -/
def seqAll : List Expr → Expr
  | [] => empty
  | [a] => a
  | a :: rest => seq a (seqAll rest)

/-- The first expression of a list that leads to a match. -/
def altAll : List Expr → Expr
  | [] => empty
  | [a] => a
  | a :: rest => alt a (altAll rest)

/-- The greatest number of a capturing group. A repetition that allows no round has no groups. -/
def groups : Expr → Nat
  | empty | one _ | edge _ => 0
  | seq a b | alt a b => max a.groups b.groups
  | rep _ (some 0) _ => 0
  | rep _ _ a => a.groups
  | group number a => max (number.getD 0) a.groups

end Expr

/-- How large an expression may be to be accepted. -/
class Limits where
  /-- whether an expression is small enough -/
  fits : Expr → Bool

end Detour
