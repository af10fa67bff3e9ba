import Detour.Expr.Basic

/-!
# The room of expressions

How large an expression may be is a matter of the matcher that it is made for. Here an estimate is made: a
matcher has a table for every set of characters, so that the room of an expression is about that of its sets
once its repetitions are written out.

* `Expr.depth` is the nesting depth, and `Expr.room` the room;
* `Expr.limits` are the limits by these two, which the program has at hand.
-/

namespace Detour

/-- The room that a set takes in a matcher, in bytes of a table over encoded characters; only
the sum over an expanded expression matters, which is bounded by `Expr.roomLimit`. -/
def CharSet.room : CharSet → Nat
  | nothing => 32
  | char _ => 48
  | range _ _ => 64
  | digit => 3000
  | blank => 500
  | word => 47000
  | category _ => 40000
  | union a b => a.room + b.room
  | both a b => a.room + b.room
  | except a b => a.room + b.room
  | oneOf a b => a.room + b.room
  | not a => a.room + 200

namespace Expr

/-- What an expression stands directly inside of; a chain of sequences or of choices counts as one
level of nesting. -/
inductive Parent where
  | sequence
  | choice
  | none
deriving DecidableEq

/-- The nesting depth of an expression below a parent. -/
def depthBelow : Parent → Expr → Nat
  | _, empty | _, one _ | _, edge _ => 0
  | p, seq a b =>
    max (depthBelow .sequence a) (depthBelow .sequence b) + if p = .sequence then 0 else 1
  | p, alt a b =>
    max (depthBelow .choice a) (depthBelow .choice b) + if p = .choice then 0 else 1
  | _, rep _ _ a => depthBelow .none a + 1
  | _, group _ a => depthBelow .none a + 1

/-- The nesting depth of an expression. -/
def depth (e : Expr) : Nat := depthBelow .none e

/-- The greatest nesting depth of an accepted expression. -/
def depthLimit : Nat := 250

/-- The room that an expression takes once its repetitions are written out. -/
def room : Expr → Nat
  | empty => 0
  | one set => set.room
  | edge _ => 32
  | seq a b => a.room + b.room
  | alt a b => a.room + b.room + 32
  | rep lo hi a => max (max lo (hi.getD 1)) 1 * (a.room + 32)
  | group _ a => a.room + 64

/-- The greatest room of an accepted expression. -/
def roomLimit : Nat := 10 * 1048576

/-- Whether an expression keeps within the bounds on depth and room. -/
def isBounded (e : Expr) : Bool := e.depth ≤ depthLimit && e.room ≤ roomLimit

/-- The limits by depth and room. -/
instance limits : Limits := ⟨isBounded⟩

end Expr

end Detour
