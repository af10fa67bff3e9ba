import Detour.Entry
import Detour.Expr.Plan
import Detour.Expr.Reading
import Detour.Wildcard.Kind

/-!
# Source patterns

A source pattern is written for people: `?`, `&` and `:` mean themselves, `[s]` is an optional
character, `<a|b>` a choice that captures nothing, `{title:segment}` a wildcard, `{!title:segment}`
one whose captures are never cleaned, and `{title}` a wildcard of the kind that its name implies.
`Pattern.compile` turns it into an expression, one construct after the other:

* `escapeSigns` escapes the signs, marks the entry script and writes optional characters;
* `expandSpans`, `nameFirst` and `expandAliases` bring spans and wildcards into one form;
* `Pattern.ofExpanded` writes the fragment of its kind for each wildcard and notes the wildcards in
  order, and `escapeBraces` escapes every brace that is no count of rounds.

Every step is one scan of the text from left to right.
-/

namespace Detour

/-- A wildcard of a source pattern. -/
structure Wildcard where
  /-- the name by which a destination refers to it -/
  name : Text
  /-- what texts it takes -/
  kind : Kind
  /-- whether its captures are never cleaned -/
  raw : Bool
deriving Repr, DecidableEq

namespace Wildcard

/-! ### Signs and optional characters -/

/-- Whether a character in square brackets is an optional character. -/
def isOptionable (c : Char) : Bool := isBasicLetter c || c.isDigit || c == '/'

/-- One character in square brackets, which becomes optional. -/
def optionalForm : Form Text
  | '[' :: c :: ']' :: _ => if isOptionable c then some ([c, '?'], 3) else none
  | _ => none

/-- The signs that mean themselves in a request, escaped; only a slash can be made optional by a
question mark. -/
def escapeSigns (source : Text) : Text :=
  let s := Text.replaceAll ['?'] ['\\', '?'] source
  let s := Text.replaceAll ['/', '\\', '?'] ['/', '?'] s
  let s := Text.replaceAll ['&'] ['\\', '&'] s
  Text.replaceAll [':'] ['\\', ':'] s

/-- A source with its signs escaped, the entry script marked and optional characters written out. -/
def prepare (source : Text) : Text :=
  Text.rewrite optionalForm id (Text.replaceAll entryScript markedEntry (escapeSigns source))

/-! ### Two words in braces -/

/-- Two words in braces, with an exclamation mark before the first if the wildcard is raw. -/
structure Pair where
  /-- whether there is an exclamation mark -/
  raw : Bool
  /-- the first word -/
  first : Text
  /-- the second word -/
  second : Text
deriving Repr, DecidableEq

/-- How two words are written in braces. -/
def Pair.write (p : Pair) : Text :=
  ['\x7b'] ++ (if p.raw then ['!'] else []) ++ p.first ++ [':'] ++ p.second ++ ['\x7d']

/-- Two nonempty words of a class of letters in braces, with the text `between` them. -/
def pairForm (letter : Char → Bool) (between : Text) : Form Pair
  | '\x7b' :: s =>
    let raw := s.head? == some '!'
    let s := if raw then s.drop 1 else s
    let first := s.takeWhile letter
    match Text.after? between (s.drop first.length) with
    | none => none
    | some s =>
      let second := s.takeWhile letter
      if first.isEmpty || second.isEmpty || (s.drop second.length).head? != some '\x7d' then none
      else
        some (⟨raw, first, second⟩,
          raw.toNat + first.length + between.length + second.length + 2)
  | _ => none

/-- The small letters of the basic alphabet. -/
def isSmall (c : Char) : Bool := 'a' ≤ c && c ≤ 'z'

/-- The escaped colons between two words in braces set free again. -/
def freeColons (s : Text) : Text := Text.rewrite (pairForm isBasicLetter ['\\', ':']) Pair.write s

/-! ### Spans, order of words and aliases -/

/-- A span in angle brackets within a line. -/
def spanForm : Form Text
  | '<' :: s =>
    let body := s.takeWhile fun c => c != '>' && c != '\n'
    if (s.drop body.length).head? == some '>' then some (body, body.length + 2) else none
  | _ => none

/-- Spans written as groups that capture nothing. -/
def expandSpans (s : Text) : Text :=
  Text.rewrite spanForm (fun body => "(?:".toList ++ body ++ [')']) s

/-- A pair with the name of a kind first, turned round unless the second word is a kind as well. -/
def nameFirstForm (s : Text) : Option (Pair × Nat) :=
  match pairForm isSmall [':'] s with
  | some (p, size) =>
    if (Kind.ofName? p.first).isSome then
      if (Kind.ofName? p.second).isSome then some (p, size)
      else some ({ p with first := p.second, second := p.first }, size)
    else none
  | none => none

/-- Wildcards with the name of the kind first written with the name of the wildcard first. -/
def nameFirst (s : Text) : Text := Text.rewrite nameFirstForm Pair.write s

/-- A single name in braces that implies a kind, in any case of its letters. -/
def aliasForm : Form Pair
  | '\x7b' :: s =>
    let word := s.takeWhile isBasicLetter
    if (s.drop word.length).head? == some '\x7d' then
      (Kind.ofAlias? (word.map fold)).map fun k => (⟨false, word, k.name⟩, word.length + 2)
    else none
  | _ => none

/-- Names that imply a kind written with that kind. -/
def expandAliases (s : Text) : Text := Text.rewrite aliasForm Pair.write s

/-! ### Wildcards and braces -/

/-- A wildcard: a name and the name of a kind. -/
def form (s : Text) : Option (Wildcard × Nat) :=
  match pairForm isSmall [':'] s with
  | some (p, size) => (Kind.ofName? p.second).map fun k => (⟨p.first, k, p.raw⟩, size)
  | none => none

/-- The group that captures what a wildcard takes. -/
def group (w : Wildcard) : Text := ['('] ++ w.kind.fragment ++ [')']

/-- The number of characters of a count of rounds behind its opening brace. -/
def countLength? (s : Text) : Option Nat :=
  let low := s.takeWhile Char.isDigit
  if low.isEmpty then none
  else match s.drop low.length with
    | '\x7d' :: _ => some (low.length + 1)
    | ',' :: rest =>
      let high := rest.takeWhile Char.isDigit
      if (rest.drop high.length).head? == some '\x7d' then some (low.length + high.length + 2)
      else none
    | _ => none

/-- What `escapeBraces` copies as a whole or escapes: an escaped character, a count of rounds, or a
brace that belongs to neither. -/
def braceForm : Form Text
  | '\\' :: c :: _ => some (['\\', c], 2)
  | '\x7b' :: s =>
    match countLength? s with
    | some n => some ('\x7b' :: s.take n, n + 1)
    | none => some (['\\', '\x7b'], 1)
  | '\x7d' :: _ => some (['\\', '\x7d'], 1)
  | _ => none

/-- A text with every brace escaped that is not escaped already and is no part of a count. -/
def escapeBraces (s : Text) : Text := Text.rewrite braceForm id s

end Wildcard

/-! ### Compiled patterns -/

/-- A compiled source pattern with its stages. -/
structure Pattern where
  /-- after escaping signs and writing optional characters -/
  escaped : Text
  /-- after bringing spans and wildcards into one form -/
  expanded : Text
  /-- the expression, which has to cover the whole path -/
  expression : Text
  /-- the wildcards in the order of the source -/
  wildcards : List Wildcard
deriving Repr, DecidableEq

/-- An expression that cannot be matched. -/
structure Refused where
  /-- the refused expression -/
  expression : Text
deriving Repr, DecidableEq

/-- What is said about a refused expression. -/
def Refused.message (r : Refused) : Text :=
  "expression `".toList ++ r.expression ++ "` rejected".toList

namespace Pattern

open Wildcard

/-- The stage between the escaped source and the wildcards. -/
def expand (escaped : Text) : Text := expandAliases (nameFirst (expandSpans escaped))

/-- The last stage: wildcards become groups, and stray braces are escaped. -/
def ofExpanded (escaped expanded : Text) : Pattern :=
  let ps := Text.pieces Wildcard.form expanded
  ⟨escaped, expanded, escapeBraces (Text.render Wildcard.group ps), Text.hits ps⟩

/-- The compiled form of a source pattern. -/
def compile (source : Text) : Pattern :=
  let escaped := freeColons (prepare source)
  ofExpanded escaped (expand escaped)

/-- The expression with its anchors: it has to match from the first to the last character. -/
def anchored (p : Pattern) : Text := "^(?:".toList ++ p.expression ++ ")$".toList

/-- The expression of a pattern ready for matching, if it is accepted. -/
def expr? [Limits] (p : Pattern) : Except Refused Expr :=
  match Expr.read? p.anchored with
  | some e => .ok e
  | none => .error ⟨p.expression⟩

end Pattern

end Detour
