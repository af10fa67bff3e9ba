import Detour.Expr.Token

/-!
# Reading an expression

`Expr.ofTokens?` builds an expression from tokens, with one open level for every group that has not
been closed. `Expr.read?` reads a written expression and refuses it when a construct is malformed, a
repetition has nothing to repeat, the groups do not pair up, or the result is too large.
-/

namespace Detour

/-- A level of groups whose end has not been reached. Both lists are in reverse order. -/
structure Level where
  /-- the number of the group, if it captures -/
  number : Option Nat
  /-- the branches before the last bar -/
  branches : List Expr
  /-- the parts of the branch behind the last bar -/
  parts : List Expr

namespace Level

/-- A level at its beginning. -/
def start (number : Option Nat) : Level := ⟨number, [], []⟩

/-- A level with one more part. -/
def insert (l : Level) (e : Expr) : Level := { l with parts := e :: l.parts }

/-- The branch behind the last bar. -/
def branch (l : Level) : Expr := Expr.seqAll l.parts.reverse

/-- A level behind one more bar. -/
def bar (l : Level) : Level := { l with branches := l.branch :: l.branches, parts := [] }

/-- The choice between all branches. -/
def choice (l : Level) : Expr := Expr.altAll (l.branch :: l.branches).reverse

/-- The level with its last part repeated, if it has one. -/
def repeatLast? (l : Level) (lo : Nat) (hi : Option Nat) : Option Level :=
  match l.parts with
  | [] => none
  | e :: parts => some { l with parts := .rep lo hi e :: parts }

end Level

namespace Expr

/-- The expression of some tokens, given the current level, the levels around it and the number of
the next capturing group. -/
def build? (level : Level) (outer : List Level) (next : Nat) : List Token → Option Expr
  | [] => if outer.isEmpty then some level.choice else none
  | token :: tokens =>
    match token with
    | .literal c => build? (level.insert (.one (.char c))) outer next tokens
    | .set a => build? (level.insert (.one a)) outer next tokens
    | .edge e => build? (level.insert (.edge e)) outer next tokens
    | .rounds lo hi =>
      match level.repeatLast? lo hi with
      | some level => build? level outer next tokens
      | none => none
    | .bar => build? level.bar outer next tokens
    | .opening true => build? (.start (some next)) (level :: outer) (next + 1) tokens
    | .opening false => build? (.start none) (level :: outer) next tokens
    | .closing =>
      match outer with
      | [] => none
      | parent :: outer =>
        build? (parent.insert (.group level.number level.choice)) outer next tokens
    | .bad => none

/-- The expression that some tokens write, groups numbered from 1 in the order they open. -/
def ofTokens? (tokens : List Token) : Option Expr := build? (.start none) [] 1 tokens

/-- The expression that a text writes, if it is accepted. -/
def read? [limits : Limits] (s : Text) : Option Expr :=
  (ofTokens? (Token.scan s)).filter limits.fits

end Expr

end Detour
