import Detour.Expr.Basic

/-!
# Matching by sets of positions

An expression is matched in a text by way of its *plan*: the expression with every character set and
assertion replaced by the set of positions of the text where it holds. A set of positions is a
number whose bits are the positions it has, so that one shift and one mask move a whole set past a
character.

* `Plan.back` goes backwards: the positions from which a plan can reach a set of positions;
* `Plan.advance?` goes forwards from one such position, takes the preferred branch of every choice
  that still leads to the set, and notes what the groups captured;
* `Expr.captures?` starts at the leftmost position from which the expression has a match.

The two passes together do the work of backtracking without ever giving up a branch again: a branch
is entered only if it is known to lead to a match.
-/

namespace Detour

/-! ### Sets of positions -/

/-- The positions before the characters of a class. -/
def placesOf (p : Char → Bool) : Text → Nat
  | [] => 0
  | c :: s => (if p c then 1 else 0) + 2 * placesOf p s

/-- A position belongs to the class exactly if a character of the class stands behind it. -/
theorem testBit_placesOf (p : Char → Bool) (s : Text) (i : Nat) :
    (placesOf p s).testBit i = (s[i]?.any p) := by
  induction s generalizing i with
  | nil => simp [placesOf]
  | cons c s ih =>
    cases i with
    | zero =>
      by_cases h : p c <;> simp [placesOf, h, Nat.testBit_zero, Nat.add_mod]
    | succ i =>
      have : (placesOf p (c :: s)) / 2 = placesOf p s := by
        by_cases h : p c
        · simp [placesOf, h]
          omega
        · simp [placesOf, h]
      rw [Nat.testBit_succ, this, ih]
      simp

/-- All positions of a text with `size` characters, its end included. -/
def allPlaces (size : Nat) : Nat := 1 <<< (size + 1) - 1

/-- The positions of a text where an assertion holds. -/
def Edge.places (e : Edge) (s : Text) : Nat :=
  let words := placesOf isWord s
  let edges := words ^^^ (words <<< 1)
  match e with
  | .start => 1
  | .stop => 1 <<< s.length
  | .wordEdge => edges
  | .noWordEdge => allPlaces s.length ^^^ edges
  | .wordStart => edges &&& words
  | .wordStop => edges &&& (words <<< 1)

/-! ### Plans -/

/-- An expression specialised to a text. -/
inductive Plan where
  /-- past one character, from a position of the set -/
  | step (places : Nat)
  /-- past nothing, at a position of the set -/
  | guard (places : Nat)
  /-- one plan behind the other -/
  | seq (a b : Plan)
  /-- the first plan or else the second -/
  | alt (a b : Plan)
  /-- one round or more, as many as possible -/
  | loop (a : Plan)
  /-- a plan whose run is noted under a number -/
  | group (number : Nat) (a : Plan)
deriving Repr, DecidableEq

namespace Plan

/-- A plan so many times, and another one behind. -/
def times (a : Plan) : Nat → Plan → Plan
  | 0, rest => rest
  | n + 1, rest => .seq a (times a n rest)

/-- A plan at most so many times, where `skip` does nothing. -/
def upTo (skip a : Plan) : Nat → Plan
  | 0 => skip
  | n + 1 => .alt (.seq a (upTo skip a n)) skip

/-- A plan repeated from `lo` to `hi` times, where `skip` does nothing. -/
def rounds (skip a : Plan) (lo : Nat) : Option Nat → Plan
  | some hi => times a lo (upTo skip a (hi - lo))
  | none =>
    match lo with
    | 0 => .alt (.loop a) skip
    | lo + 1 => times a lo (.loop a)

/-- The plan of an expression in a text. -/
def ofExpr (s : Text) : Expr → Plan
  | .empty => .guard (allPlaces s.length)
  | .one set => .step (placesOf set.has s)
  | .edge e => .guard (e.places s)
  | .seq a b => .seq (ofExpr s a) (ofExpr s b)
  | .alt a b => .alt (ofExpr s a) (ofExpr s b)
  | .rep lo hi a => rounds (.guard (allPlaces s.length)) (ofExpr s a) lo hi
  | .group (some n) a => .group n (ofExpr s a)
  | .group none a => ofExpr s a

/-! ### Backwards -/

/-- The least set that has `goal` and all positions that `back` leads to it from. Each round adds a
position or is the last, so that `fuel` need not exceed the number of positions. -/
def closure (back : Nat → Nat) : (fuel : Nat) → (goal : Nat) → Nat
  | 0, goal => goal
  | fuel + 1, goal =>
    let more := goal ||| back goal
    if more = goal then goal else closure back fuel more

/-- The positions from which a plan can reach a position of `goal`. -/
def back : Plan → (goal : Nat) → Nat
  | step places, goal => places &&& (goal >>> 1)
  | guard places, goal => places &&& goal
  | seq a b, goal => a.back (b.back goal)
  | alt a b, goal => a.back goal ||| b.back goal
  | loop a, goal => a.back (closure (fun set => a.back set) (goal.log2 + 2) goal)
  | group _ a, goal => a.back goal

/-- The positions between two rounds of a loop from which `goal` can still be reached. -/
def between (a : Plan) (goal : Nat) : Nat := closure a.back (goal.log2 + 2) goal

/-! ### Forwards -/

/-- What the groups captured: the number of a group with the positions where it began and ended,
the latest first. -/
abbrev Notes := List (Nat × Nat × Nat)

/-- A set without one position. -/
def without (set i : Nat) : Nat := if set.testBit i then set ^^^ (1 <<< i) else set

/-- Further rounds of a loop from position `i`, as long as a round that takes a character leads on.
`live` are the positions between two rounds, `back` and `advance` those of the loop's body. -/
def moreRounds (live : Nat) (back : Nat → Nat)
    (advance : Nat → Nat → Notes → Option (Nat × Notes)) :
    (fuel : Nat) → (i : Nat) → Notes → Option (Nat × Notes)
  | 0, i, notes => some (i, notes)
  | fuel + 1, i, notes =>
    let goal := without live i
    if (back goal).testBit i then
      match advance goal i notes with
      | some (j, notes) => moreRounds live back advance fuel j notes
      | none => none
    else some (i, notes)

/-- The preferred run of a plan from position `i` to a position of `goal`, with what it captured on
the way. A round of a loop that took no character ends the loop. -/
def advance? : Plan → (goal i : Nat) → Notes → Option (Nat × Notes)
  | step places, goal, i, notes =>
    if places.testBit i && goal.testBit (i + 1) then some (i + 1, notes) else none
  | guard places, goal, i, notes =>
    if places.testBit i && goal.testBit i then some (i, notes) else none
  | seq a b, goal, i, notes =>
    match a.advance? (b.back goal) i notes with
    | some (j, notes) => b.advance? goal j notes
    | none => none
  | alt a b, goal, i, notes =>
    if (a.back goal).testBit i then a.advance? goal i notes else b.advance? goal i notes
  | group n a, goal, i, notes =>
    match a.advance? goal i notes with
    | some (j, notes) => some (j, (n, i, j) :: notes)
    | none => none
  | loop a, goal, i, notes =>
    let live := a.between goal
    match a.advance? (if goal.testBit i then live else without live i) i notes with
    | some (j, notes) =>
      if j = i then some (j, notes)
      else moreRounds live a.back (fun g k ns => a.advance? g k ns) (goal.log2 + 2) j notes
    | none => none

end Plan

/-! ### Matches of an expression -/

/-- A match of an expression in a text. -/
structure Match where
  /-- the position where it begins -/
  start : Nat
  /-- the position where it ends -/
  stop : Nat
  /-- what the groups captured -/
  notes : Plan.Notes
deriving Repr, DecidableEq

namespace Expr

/-- The leftmost match of an expression in a text, and of those the preferred one. -/
def match? (e : Expr) (s : Text) : Option Match :=
  let plan := Plan.ofExpr s e
  let live := plan.back (allPlaces s.length)
  match (List.range (s.length + 1)).find? fun i => live.testBit i with
  | some i => (plan.advance? (allPlaces s.length) i []).map fun (j, notes) => ⟨i, j, notes⟩
  | none => none

/-- The part of a text between two positions. -/
def slice (s : Text) (i j : Nat) : Text := (s.drop i).take (j - i)

/-- The texts captured by the groups of the leftmost match, in the order of their numbers; a group
that took no part captured the empty text. -/
def captures? (e : Expr) (s : Text) : Option (List Text) :=
  (e.match? s).map fun m =>
    (List.range e.groups).map fun n =>
      match m.notes.lookup (n + 1) with
      | some (i, j) => slice s i j
      | none => []

end Expr

end Detour
