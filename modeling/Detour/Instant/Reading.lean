import Detour.Instant.Basic
import Detour.Text.Word

/-!
# Reading instants

Three ways in which an instant may be written.

* `readStrict?` takes a date, one of `T`, `t` and a space, a time of day with any fraction, and `Z` or
  an offset, with exactly so many digits for each number;
* `readStored?` is for the bounds of rules: the strict form, or a date with or without a time in
  universal time, where numbers may have fewer digits and blanks before them. A bound on or before
  1974-10-10 is a placeholder and counts as absent;
* `readLoose?` is for records of earlier runs: blanks may stand around most signs.
-/

namespace Detour

namespace Instant

/-! ### Numbers and signs -/

/-- A number of at least `least` and at most `most` digits and the text behind it. -/
def digits? (least most : Nat) (s : Text) : Option (Nat × Text) :=
  let ds := (s.take most).takeWhile Char.isDigit
  if ds.length < least then none else some (decimal ds, s.drop ds.length)

/-- A number of at most `most` digits behind any blanks, and the text behind it. -/
def field? (most : Nat) (s : Text) : Option (Nat × Text) :=
  digits? 1 most (Text.trimStart isBlank s)

/-- A year behind any blanks and the text behind it: at most four digits, or any number of them
behind a sign. -/
def year? (s : Text) : Option (Int × Text) :=
  match Text.trimStart isBlank s with
  | '-' :: s => (digits? 1 s.length s).map fun (n, s) => (-n, s)
  | '+' :: s => (digits? 1 s.length s).map fun (n, s) => (n, s)
  | s => (digits? 1 4 s).map fun (n, s) => (n, s)

/-- The text behind a sign. -/
def sign? (c : Char) : Text → Option Text
  | d :: s => if c = d then some s else none
  | [] => none

/-- The text behind the sign between a date and a time. -/
def timeSign? : Text → Option Text
  | 'T' :: s | 't' :: s | ' ' :: s => some s
  | _ => none

/-- The nanoseconds of a fraction, if there is one, and the text behind it. Digits behind the ninth
are passed over. -/
def fraction? : Text → Option (Nat × Text)
  | '.' :: s =>
    let ds := (s.take 9).takeWhile Char.isDigit
    if ds.isEmpty then none
    else some (decimal (ds ++ List.replicate (9 - ds.length) '0'), s.dropWhile Char.isDigit)
  | s => some (0, s)

/-- An offset in seconds and the text behind it: `Z`, or a sign, two digits, what `between` passes
over, and two digits. -/
def offset? (between : Text → Option Text) : Text → Option (Int × Text)
  | 'Z' :: s | 'z' :: s => some (0, s)
  | c :: s =>
    if c = '+' || c = '-' || c = '\u2212' then do
      let (hours, s) ← digits? 2 2 s
      let s ← between s
      let (minutes, s) ← digits? 2 2 s
      let size : Int := hours * 3600 + minutes * 60
      if minutes < 60 && hours < 24 then some (if c = '+' then size else -size, s) else none
    else none
  | [] => none

/-! ### The strict form -/

/-- The instant that a text denotes in the strict form. -/
def readStrict? (s : Text) : Option Instant := do
  let (year, s) ← digits? 4 4 s
  let (month, s) ← digits? 2 2 (← sign? '-' s)
  let (day, s) ← digits? 2 2 (← sign? '-' s)
  let (hour, s) ← digits? 2 2 (← timeSign? s)
  let (minute, s) ← digits? 2 2 (← sign? ':' s)
  let (sec, s) ← digits? 2 2 (← sign? ':' s)
  let (nanos, s) ← fraction? s
  let (offset, s) ← offset? (sign? ':') s
  if s.isEmpty then ofCivil? ⟨year, month, day⟩ hour minute sec nanos offset else none

/-! ### Bounds of rules -/

/-- A date and the text behind it. -/
def date? (s : Text) : Option (Date × Text) := do
  let (year, s) ← year? s
  let (month, s) ← field? 2 (← sign? '-' s)
  let (day, s) ← field? 2 (← sign? '-' s)
  some (⟨year, month, day⟩, s)

/-- The instant that a date and a time denote in universal time. -/
def readDateTime? (s : Text) : Option Instant := do
  let (date, s) ← date? s
  let (hour, s) ← field? 2 s
  let (minute, s) ← field? 2 (← sign? ':' s)
  let (sec, s) ← field? 2 (← sign? ':' s)
  if s.isEmpty then ofCivil? date hour minute sec 0 0 else none

/-- The instant at which a date begins in universal time. -/
def readDate? (s : Text) : Option Instant := do
  let (date, s) ← date? s
  if s.isEmpty then ofCivil? date 0 0 0 0 0 else none

/-- The last instant that counts as a placeholder, 1974-10-10 at midnight. -/
def lastPlaceholder : Instant := ⟨Date.toDay ⟨1974, 10, 10⟩ * 86400, 0⟩

/-- The instant that a stored bound denotes; placeholders denote none. -/
def readStored? (raw : Text) : Option Instant :=
  let s := Text.trim raw
  ((readStrict? s).or ((readDateTime? s).or (readDate? s))).filter fun t => lastPlaceholder.lt t

/-! ### Records -/

/-- The text behind blanks and a sign. -/
def looseSign? (c : Char) (s : Text) : Option Text := sign? c (Text.trimStart isBlank s)

/-- The instant that a record denotes. -/
def readLoose? (s : Text) : Option Instant := do
  let (year, s) ← year? s
  let (month, s) ← field? 2 (← looseSign? '-' s)
  let (day, s) ← field? 2 (← looseSign? '-' s)
  let (hour, s) ← field? 2 (← timeSign? s)
  let (minute, s) ← field? 2 (← looseSign? ':' s)
  let (sec, s) ← field? 2 (← looseSign? ':' s)
  let (nanos, s) ← fraction? s
  let s := Text.trimStart isBlank s
  let (offset, s) ←
    if (s.take 3).map Char.toUpper = ['U', 'T', 'C'] then some (0, s.drop 3)
    else offset? (fun s => some (s.dropWhile fun c => c == ':' || isBlank c)) s
  if (Text.trimStart isBlank s).isEmpty then
    ofCivil? ⟨year, month, day⟩ hour minute sec nanos offset
  else none

end Instant

end Detour
