import Detour.Expr.Basic
import Detour.Text.Digits
import Detour.Text.Piece

/-!
# Tokens of written expressions

How an expression is written: a backslash escapes, square brackets hold a set of characters, round
ones a group, and `|`, `*`, `+`, `?` and counts in braces combine what stands beside them.
`Token.form` recognises the construct at the front of a text; a character that starts none is a
literal. A malformed construct is the token `bad`, with which no expression can be built.

Set brackets nest, and inside them `--`, `~~` and `&&` combine the set before with the set behind,
from left to right.
-/

namespace Detour

/-- A construct of a written expression. -/
inductive Token where
  /-- a character that stands for itself -/
  | literal (c : Char)
  /-- a set of characters -/
  | set (s : CharSet)
  /-- an assertion -/
  | edge (e : Edge)
  /-- the beginning of a group -/
  | opening (capturing : Bool)
  /-- the end of a group -/
  | closing
  /-- the sign between two branches of a choice -/
  | bar
  /-- a repetition of what stands before -/
  | rounds (lo : Nat) (hi : Option Nat)
  /-- a malformed construct -/
  | bad
deriving Repr, DecidableEq

namespace Token

/-! ### Escapes -/

/-- The character with a code point, if there is one. -/
def charAt? (n : Nat) : Option Char := if n.isValidChar then some (Char.ofNat n) else none

/-- A character given by its code point, or `bad`. -/
def ofCode (code : Option Nat) : Token :=
  match code.bind charAt? with
  | some c => literal c
  | none => bad

/-- The code point behind `\x`, `\u` or `\U`: that many digits, or any number of them in braces.
The second part is the number of characters read. -/
def code (width : Nat) : Text → Token × Nat
  | '\x7b' :: rest =>
    let digits := rest.takeWhile (· != '\x7d')
    if digits.length < rest.length then (ofCode (hexNumber? digits), digits.length + 2)
    else (bad, 1)
  | rest =>
    let digits := rest.take width
    if digits.length = width then (ofCode (hexNumber? digits), width) else (bad, 1)

/-- A general category behind `\p` or `\P`. -/
def ofCategory (negated : Bool) : Text → Token
  | c :: _ =>
    match Category.ofLetter? c with
    | some k => set (if negated then .not (.category k) else .category k)
    | none => bad
  | [] => bad

/-- Whether a backslash before the character makes it stand for itself: ASCII signs and controls,
but no letter or digit and no angle bracket. -/
def isPlainEscape (c : Char) : Bool := c.toNat < 128 && !c.isAlphanum && c != '<' && c != '>'

/-- The token that an escape denotes and its length, given the text behind the backslash. -/
def escaped : Text → Token × Nat
  | [] => (bad, 1)
  | c :: rest =>
    match c with
    | 'd' => (set .digit, 2)
    | 'D' => (set (.not .digit), 2)
    | 's' => (set .blank, 2)
    | 'S' => (set (.not .blank), 2)
    | 'w' => (set .word, 2)
    | 'W' => (set (.not .word), 2)
    | 'p' => (ofCategory false rest, 3)
    | 'P' => (ofCategory true rest, 3)
    | 'x' => let (t, n) := code 2 rest; (t, n + 2)
    | 'u' => let (t, n) := code 4 rest; (t, n + 2)
    | 'U' => let (t, n) := code 8 rest; (t, n + 2)
    | 'a' => (literal '\x07', 2)
    | 'f' => (literal '\x0c', 2)
    | 't' => (literal '\t', 2)
    | 'n' => (literal '\n', 2)
    | 'r' => (literal '\r', 2)
    | 'v' => (literal '\x0b', 2)
    | 'A' => (edge .start, 2)
    | 'z' => (edge .stop, 2)
    | 'b' => (edge .wordEdge, 2)
    | 'B' => (edge .noWordEdge, 2)
    | '<' => (edge .wordStart, 2)
    | '>' => (edge .wordStop, 2)
    | _ => (if isPlainEscape c then literal c else bad, 2)

/-! ### Sets in square brackets -/

/-- The signs that combine two sets. -/
inductive SetSign where
  | both
  | except
  | oneOf
deriving Repr, DecidableEq

/-- The set that a sign makes of the sets on its two sides. -/
def SetSign.apply : SetSign → CharSet → CharSet → CharSet
  | both, a, b => .both a b
  | except, a, b => .except a b
  | oneOf, a, b => .oneOf a b

/-- An opened square bracket that is not yet closed. -/
structure Bracket where
  /-- whether the set is negated when the bracket closes -/
  negated : Bool
  /-- a sign that waits for its right side, with its left side -/
  waiting : Option (CharSet × SetSign)
  /-- the union of the items since the last sign -/
  items : CharSet

namespace Bracket

/-- A bracket with one more item. -/
def insert (b : Bracket) (s : CharSet) : Bracket := { b with items := .union b.items s }

/-- The items of a bracket combined with what waits for them. -/
def combined (b : Bracket) : CharSet :=
  match b.waiting with
  | none => b.items
  | some (left, sign) => sign.apply left b.items

/-- A bracket behind one more sign. -/
def sign (b : Bracket) (sign : SetSign) : Bracket :=
  { b with waiting := some (b.combined, sign), items := .nothing }

/-- The set of a closed bracket. -/
def close (b : Bracket) : CharSet := if b.negated then .not b.combined else b.combined

/-- The bracket that opens before a text, and the text behind its beginning: a `^` negates, hyphens
are literal, and so is a closing bracket if it comes first. -/
def opened (s : Text) : Bracket × Text :=
  let (negated, s) := match s with
    | '^' :: rest => (true, rest)
    | _ => (false, s)
  let hyphens := s.takeWhile (· == '-')
  let s := s.drop hyphens.length
  if hyphens.isEmpty then
    match s with
    | ']' :: rest => (⟨negated, none, .char ']'⟩, rest)
    | _ => (⟨negated, none, .nothing⟩, s)
  else (⟨negated, none, .char '-'⟩, s)

/-- One character of a set, escaped or not, and the text behind it. -/
def single : Text → Token × Text
  | [] => (bad, [])
  | '\\' :: rest => let (t, n) := escaped rest; (t, rest.drop (n - 1))
  | c :: rest => (literal c, rest)

/-- One item of a set: a class, a character, or a range of characters, and the text behind it. -/
def item? (s : Text) : Option (CharSet × Text) :=
  let (first, rest) := single s
  let alone : Option (CharSet × Text) :=
    match first with
    | literal c => some (.char c, rest)
    | set a => some (a, rest)
    | _ => none
  match rest with
  | '-' :: ']' :: _ | '-' :: '-' :: _ => alone
  | '-' :: rest =>
    match first, single rest with
    | literal lo, (literal hi, rest) => if lo ≤ hi then some (.range lo hi, rest) else none
    | _, _ => none
  | _ => alone

/-- The set that ends the bracket `b`, the outermost of the brackets `outer`, and the text behind.
Every round reads at least one character, so that `fuel` need not exceed their number. -/
def read? : (fuel : Nat) → (b : Bracket) → (outer : List Bracket) → Text → Option (CharSet × Text)
  | 0, _, _, _ => none
  | fuel + 1, b, outer, s =>
    match s with
    | [] => none
    | '[' :: rest =>
      let (inner, rest) := opened rest
      read? fuel inner (b :: outer) rest
    | ']' :: rest =>
      match outer with
      | [] => some (b.close, rest)
      | parent :: outer => read? fuel (parent.insert b.close) outer rest
    | '&' :: '&' :: rest => read? fuel (b.sign .both) outer rest
    | '-' :: '-' :: rest => read? fuel (b.sign .except) outer rest
    | '~' :: '~' :: rest => read? fuel (b.sign .oneOf) outer rest
    | s =>
      match item? s with
      | some (chars, rest) => read? fuel (b.insert chars) outer rest
      | none => none

end Bracket

/-- The set whose square bracket opens before a text, and the number of characters up to and with
its closing bracket. -/
def bracketed (s : Text) : Token × Nat :=
  let (b, rest) := Bracket.opened s
  match Bracket.read? (s.length + 1) b [] rest with
  | some (a, rest) => (set a, s.length - rest.length)
  | none => (bad, 1)

/-! ### Counts in braces -/

/-- The greatest count of rounds. -/
def countLimit : Nat := UInt32.size - 1

/-- The rounds `{n}`, `{n,}` or `{n,m}` and their length, given the text behind the brace. -/
def counted (s : Text) : Token × Nat :=
  let low := s.takeWhile Char.isDigit
  let lo := decimal low
  if low.isEmpty || lo > countLimit then (bad, 1)
  else match s.drop low.length with
    | '\x7d' :: _ => (rounds lo (some lo), low.length + 2)
    | ',' :: rest =>
      let high := rest.takeWhile Char.isDigit
      let hi := decimal high
      match rest.drop high.length with
      | '\x7d' :: _ =>
        if high.isEmpty then (rounds lo none, low.length + 3)
        else if hi > countLimit || hi < lo then (bad, 1)
        else (rounds lo (some hi), low.length + high.length + 3)
      | _ => (bad, 1)
    | _ => (bad, 1)

/-! ### All constructs -/

/-- The construct at the front of a written expression. -/
def form : Form Token
  | [] => none
  | c :: rest =>
    match c with
    | '\\' => some (escaped rest)
    | '[' => let (t, n) := bracketed rest; some (t, n + 1)
    | '\x7b' => some (counted rest)
    | '(' =>
      match rest with
      | '?' :: ':' :: _ => some (opening false, 3)
      | '?' :: _ => some (bad, 1)
      | _ => some (opening true, 1)
    | ')' => some (closing, 1)
    | '|' => some (bar, 1)
    | '*' => some (rounds 0 none, 1)
    | '+' => some (rounds 1 none, 1)
    | '?' => some (rounds 0 (some 1), 1)
    | '.' => some (set .dot, 1)
    | '^' => some (edge .start, 1)
    | '$' => some (edge .stop, 1)
    | _ => none

/-- The tokens of a written expression. -/
def scan (s : Text) : List Token :=
  (Text.pieces form s).map fun
    | .plain c => literal c
    | .hit t => t

end Token

end Detour
