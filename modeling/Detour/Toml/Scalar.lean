import Detour.Instant.Calendar
import Detour.Text.Digits
import Detour.Toml.Basic

/-!
# Plain values of TOML

How texts, numbers, truth values and dates are written. Texts stand in single or double quotes, on one
line or between triple quotes on many; every other plain value is a word without blanks, but for a date
and a time with a blank between them.
-/

namespace Detour

namespace Toml

/-! ### Texts -/

/-- Whether a character may stand in a text or a comment as it is: no control but the tab. -/
def isPlain (c : Char) : Bool := c == '\t' || (32 ≤ c.toNat && c.toNat != 127)

/-- The character that so many digits in base sixteen denote, and the text behind them. -/
def codePoint? (width : Nat) (s : Text) : Option (Char × Text) := do
  let n ← hexNumber? (s.take width)
  if (s.take width).length = width ∧ n.isValidChar then some (Char.ofNat n, s.drop width) else none

/-- The character that an escape denotes, given the text behind the backslash. -/
def escape? : Text → Option (Char × Text)
  | 'b' :: s => some ('\x08', s)
  | 't' :: s => some ('\t', s)
  | 'n' :: s => some ('\n', s)
  | 'f' :: s => some ('\x0c', s)
  | 'r' :: s => some ('\r', s)
  | '"' :: s => some ('"', s)
  | '\\' :: s => some ('\\', s)
  | 'u' :: s => codePoint? 4 s
  | 'U' :: s => codePoint? 8 s
  | _ => none

/-- Whether a character is a blank within a line. -/
def isGap (c : Char) : Bool := c == ' ' || c == '\t'

/-- The text behind a line end. -/
def lineEnd? : Text → Option Text
  | '\n' :: s => some s
  | '\r' :: '\n' :: s => some s
  | _ => none

/-- The text behind blanks and line ends. Every round takes a character, so that `fuel` need not exceed
their number. -/
def skipLines : (fuel : Nat) → Text → Text
  | 0, s => s
  | fuel + 1, s =>
    let s := s.dropWhile isGap
    match lineEnd? s with
    | some rest => skipLines fuel rest
    | none => s

/-- The text in double quotes, given what stands behind the first, and the text behind the last. -/
def basic? : (fuel : Nat) → Text → Option (Text × Text)
  | 0, _ => none
  | fuel + 1, s =>
    match s with
    | [] => none
    | '"' :: rest => some ([], rest)
    | '\\' :: s => do
      let (c, s) ← escape? s
      let (body, rest) ← basic? fuel s
      some (c :: body, rest)
    | c :: s =>
      if isPlain c then (basic? fuel s).map fun (body, rest) => (c :: body, rest) else none

/-- The text in single quotes, given what stands behind the first, and the text behind the last. -/
def literal? : Text → Option (Text × Text)
  | [] => none
  | '\'' :: rest => some ([], rest)
  | c :: s => if isPlain c then (literal? s).map fun (body, rest) => (c :: body, rest) else none

/-- Up to two quotes that stand before three closing ones, and the text behind all of them. -/
def closing? (quote : Char) (s : Text) : Option (Text × Text) :=
  let quotes := (s.take 5).takeWhile (· == quote)
  if quotes.length < 3 then none else some (quotes.drop 3, s.drop quotes.length)

/-- The text between triple quotes, given what stands behind the first three. A line end is a line feed
however it is written, and between double quotes a backslash at the end of a line joins it to the next
character that is no blank. -/
def manyLines? (quote : Char) : (fuel : Nat) → Text → Option (Text × Text)
  | 0, _ => none
  | fuel + 1, s =>
    match closing? quote s with
    | some (quotes, rest) => some (quotes, rest)
    | none =>
      match lineEnd? s with
      | some s => (manyLines? quote fuel s).map fun (body, rest) => ('\n' :: body, rest)
      | none =>
        match s with
        | [] => none
        | c :: s =>
          if c = '\\' && quote = '"' then
            match lineEnd? (s.dropWhile isGap) with
            | some s => manyLines? quote fuel (skipLines (s.length + 1) s)
            | none => do
              let (c, s) ← escape? s
              let (body, rest) ← manyLines? quote fuel s
              some (c :: body, rest)
          else if isPlain c then
            (manyLines? quote fuel s).map fun (body, rest) => (c :: body, rest)
          else none

/-- The text that begins with a quote, and the text behind it. -/
def quoted? : Text → Option (Text × Text)
  | '"' :: '"' :: '"' :: s =>
    let s := (lineEnd? s).getD s
    manyLines? '"' (s.length + 1) s
  | '\'' :: '\'' :: '\'' :: s =>
    let s := (lineEnd? s).getD s
    manyLines? '\'' (s.length + 1) s
  | '"' :: s => basic? (s.length + 1) s
  | '\'' :: s => literal? s
  | _ => none

/-! ### Numbers -/

/-- Digits of a class without the underscores between them; `none` if an underscore stands elsewhere
or there is no digit. -/
def spaced? (isDigit : Char → Bool) (s : Text) : Option Text :=
  let parts := Text.split '_' s
  if parts.all fun p => !p.isEmpty && p.all isDigit then some parts.flatten else none

/-- Decimal digits with no zero before others, underscores taken out. -/
def whole? (s : Text) : Option Text :=
  match spaced? Char.isDigit s with
  | some ('0' :: _ :: _) | none => none
  | some ds => some ds

/-- A sign, if there is one, and the text behind it; the sign is true for a minus. -/
def signed : Text → Bool × Text
  | '-' :: s => (true, s)
  | '+' :: s => (false, s)
  | s => (false, s)

/-- A whole number of 64 bits as a value. -/
def ofInt? (n : Int) : Option Toml :=
  if Int64.minValue.toInt ≤ n ∧ n ≤ Int64.maxValue.toInt then some (integer n) else none

/-- The whole number that a word denotes. -/
def integer? (s : Text) : Option Toml :=
  match s with
  | '0' :: 'x' :: s => (spaced? isHex s).bind fun ds => ofInt? (hexadecimal ds)
  | '0' :: 'o' :: s =>
    (spaced? (fun c => '0' ≤ c && c ≤ '7') s).bind fun ds =>
      ofInt? (numberOf 8 (fun c => c.toNat - '0'.toNat) ds)
  | '0' :: 'b' :: s =>
    (spaced? (fun c => c == '0' || c == '1') s).bind fun ds =>
      ofInt? (numberOf 2 (fun c => c.toNat - '0'.toNat) ds)
  | _ =>
    let (minus, digits) := signed s
    (whole? digits).bind fun ds => ofInt? (if minus then -(decimal ds : Int) else decimal ds)

/-- Whether a word is an exponent of a number, with its letter. -/
def isExponent : Text → Bool
  | c :: s => (c == 'e' || c == 'E') && (spaced? Char.isDigit (signed s).2).isSome
  | [] => false

/-- Whether a word is a number with a fraction or an exponent, or one of the two special numbers. -/
def isFloat (s : Text) : Bool :=
  let number := (signed s).2
  if number = "inf".toList || number = "nan".toList then true
  else
    let whole := number.takeWhile fun c => c.isDigit || c == '_'
    (whole? whole).isSome &&
      match number.drop whole.length with
      | '.' :: s =>
        let fraction := s.takeWhile fun c => c.isDigit || c == '_'
        let rest := s.drop fraction.length
        (spaced? Char.isDigit fraction).isSome && (rest.isEmpty || isExponent rest)
      | rest => isExponent rest

/-! ### Dates and times -/

/-- Two digits as a number up to `most`, and the text behind them. -/
def twoDigits? (most : Nat) : Text → Option (Nat × Text)
  | a :: b :: s =>
    let n := decimal [a, b]
    if a.isDigit && b.isDigit && n ≤ most then some (n, s) else none
  | _ => none

/-- The text behind a date, if a text begins with one that is on the calendar. -/
def afterDate? (s : Text) : Option Text :=
  let year := s.take 4
  if year.length = 4 && year.all Char.isDigit then
    match s.drop 4 with
    | '-' :: s => do
      let (month, s) ← twoDigits? 12 s
      match s with
      | '-' :: s => do
        let (day, s) ← twoDigits? 31 s
        if (Date.mk (decimal year) month day).isValid then some s else none
      | _ => none
    | _ => none
  else none

/-- The text behind a time of day, if a text begins with one. -/
def afterTime? (s : Text) : Option Text := do
  let (_, s) ← twoDigits? 23 s
  match s with
  | ':' :: s => do
    let (_, s) ← twoDigits? 59 s
    match s with
    | ':' :: s => do
      let (_, s) ← twoDigits? 60 s
      match s with
      | '.' :: rest =>
        let digits := rest.takeWhile Char.isDigit
        if digits.isEmpty then none else some (rest.drop digits.length)
      | s => some s
    | _ => none
  | _ => none

/-- Whether a text is an offset from universal time, or empty. -/
def isOffset : Text → Bool
  | [] | ['Z'] | ['z'] => true
  | c :: s =>
    (c == '+' || c == '-') &&
      match twoDigits? 23 s with
      | some (_, ':' :: s) => (twoDigits? 59 s).any fun (_, s) => s.isEmpty
      | _ => false

/-- Whether a text is a date, a time, or a date and a time with or without an offset. -/
def isMoment (s : Text) : Bool :=
  match afterDate? s with
  | some [] => true
  | some (c :: s) =>
    (c == 'T' || c == 't' || c == ' ') && (afterTime? s).any isOffset
  | none => (afterTime? s).any List.isEmpty

/-! ### Words -/

/-- Whether a character ends a word. -/
def endsWord (c : Char) : Bool :=
  isGap c || c == '\n' || c == '\r' || c == ',' || c == ']' || c == '\x7d' || c == '#'

/-- The word at the front of a text, a time behind a date and a blank included. -/
def word (s : Text) : Text :=
  let first := s.takeWhile fun c => !endsWord c
  match afterDate? first, s.drop first.length with
  | some [], ' ' :: rest =>
    let time := rest.takeWhile fun c => !endsWord c
    if (afterTime? time).isSome then first ++ ' ' :: time else first
  | _, _ => first

/-- The value that a word denotes. -/
def ofWord? (s : Text) : Option Toml :=
  if s = "true".toList then some (bool true)
  else if s = "false".toList then some (bool false)
  else if isMoment s then some (moment s)
  else if isFloat s then some float
  else integer? s

end Toml

end Detour
