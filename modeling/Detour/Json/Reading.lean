import Detour.Json.Basic

/-!
# Reading JSON documents

`Json.read?` reads a text that is one document with blanks around it. Strings may hold everything but
controls and unknown escapes; whether an escape denotes a character is left to those who ask for the
text.
-/

namespace Detour

namespace Json

/-- Whether a character is blank between the parts of a document. -/
def isSpace (c : Char) : Bool := c == ' ' || c == '\t' || c == '\n' || c == '\r'

/-- A text without leading blanks. -/
def skipSpace (s : Text) : Text := s.dropWhile isSpace

/-- What stands before the closing quote, and the text behind the quote. -/
def quoted? : Text → Option (Text × Text)
  | [] => none
  | '"' :: s => some ([], s)
  | '\\' :: 'u' :: a :: b :: c :: d :: s =>
    if [a, b, c, d].all isHex then
      (quoted? s).map fun (body, rest) => ('\\' :: 'u' :: a :: b :: c :: d :: body, rest)
    else none
  | '\\' :: c :: s =>
    if (unescaped? c).isSome then (quoted? s).map fun (body, rest) => ('\\' :: c :: body, rest)
    else none
  | c :: s =>
    if c.toNat < 32 || c == '\\' then none
    else (quoted? s).map fun (body, rest) => (c :: body, rest)

/-- At least one digit, and the text behind the digits. -/
def digits? (s : Text) : Option (Text × Text) :=
  let ds := s.takeWhile Char.isDigit
  if ds.isEmpty then none else some (ds, s.drop ds.length)

/-- The whole part of a number, and the text behind it; only zero begins with a zero. -/
def whole? : Text → Option (Text × Text)
  | '0' :: s => some (['0'], s)
  | s => digits? s

/-- The fraction of a number if there is one, and the text behind it. -/
def fraction? : Text → Option (Text × Text)
  | '.' :: s => (digits? s).map fun (ds, rest) => ('.' :: ds, rest)
  | s => some ([], s)

/-- The exponent of a number if there is one, and the text behind it. -/
def exponent? : Text → Option (Text × Text)
  | c :: s =>
    if c = 'e' || c = 'E' then
      match s with
      | d :: rest =>
        if d = '+' || d = '-' then (digits? rest).map fun (ds, rest) => (c :: d :: ds, rest)
        else (digits? s).map fun (ds, rest) => (c :: ds, rest)
      | [] => none
    else some ([], c :: s)
  | [] => some ([], [])

/-- A number as it is written, and the text behind it. -/
def number? (s : Text) : Option (Text × Text) := do
  let (minus, s) := match s with
    | '-' :: rest => (['-'], rest)
    | _ => ([], s)
  let (whole, s) ← whole? s
  let (fraction, s) ← fraction? s
  let (exponent, s) ← exponent? s
  some (minus ++ whole ++ fraction ++ exponent, s)

mutual

/-- A document and the text behind it. Every level of nesting and every element takes a character, so
that `fuel` need not exceed their number. -/
def value? : (fuel : Nat) → Text → Option (Json × Text)
  | 0, _ => none
  | fuel + 1, s =>
    match s with
    | '"' :: s => (quoted? s).map fun (body, rest) => (string body, rest)
    | '[' :: s =>
      match skipSpace s with
      | ']' :: rest => some (array [], rest)
      | s => (elements? fuel s).map fun (es, rest) => (array es, rest)
    | '\x7b' :: s =>
      match skipSpace s with
      | '\x7d' :: rest => some (object [], rest)
      | s => (members? fuel s).map fun (ms, rest) => (object ms, rest)
    | 'n' :: 'u' :: 'l' :: 'l' :: rest => some (null, rest)
    | 't' :: 'r' :: 'u' :: 'e' :: rest => some (bool true, rest)
    | 'f' :: 'a' :: 'l' :: 's' :: 'e' :: rest => some (bool false, rest)
    | s => (number? s).map fun (n, rest) => (number n, rest)

/-- The elements of a list up to its closing bracket, and the text behind it. -/
def elements? : (fuel : Nat) → Text → Option (List Json × Text)
  | 0, _ => none
  | fuel + 1, s =>
    match value? fuel (skipSpace s) with
    | none => none
    | some (e, s) =>
      match skipSpace s with
      | ']' :: rest => some ([e], rest)
      | ',' :: s => (elements? fuel s).map fun (es, rest) => (e :: es, rest)
      | _ => none

/-- The members of an object up to its closing brace, and the text behind it. -/
def members? : (fuel : Nat) → Text → Option (List (Text × Json) × Text)
  | 0, _ => none
  | fuel + 1, s =>
    match skipSpace s with
    | '"' :: s =>
      match quoted? s with
      | none => none
      | some (key, s) =>
        match skipSpace s with
        | ':' :: s =>
          match value? fuel (skipSpace s) with
          | none => none
          | some (v, s) =>
            match skipSpace s with
            | '\x7d' :: rest => some ([(key, v)], rest)
            | ',' :: s => (members? fuel s).map fun (ms, rest) => ((key, v) :: ms, rest)
            | _ => none
        | _ => none
    | _ => none

end

/-- The document that a text is. -/
def read? (s : Text) : Option Json :=
  match value? (s.length + 1) (skipSpace s) with
  | some (j, rest) => if (skipSpace rest).isEmpty then some j else none
  | none => none

/-! ### Records -/

/-- The members of an object with the texts of their keys; `none` if a key denotes no text. -/
def keyed? (members : List (Text × Json)) : Option (List (Text × Json)) :=
  members.mapM fun (k, v) => (unescape? k).map fun k => (k, v)

/-- The fields of a record in the given order: those of an object, other members passed over, or the
elements of a list of that many. A field that is missing from an object is `none`, and a field that
an object has twice is refused. -/
def fields? (names : List Text) : Json → Option (List (Option Json))
  | object members => do
    let members ← keyed? members
    names.mapM fun name =>
      match members.filter fun m => m.1 = name with
      | [] => some none
      | [m] => some (some m.2)
      | _ => none
  | array elements => if elements.length = names.length then some (elements.map some) else none
  | _ => none

end Json

end Detour
