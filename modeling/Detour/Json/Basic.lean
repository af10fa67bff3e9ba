import Detour.Text.Digits

/-!
# JSON documents

A document keeps the spelling of its numbers and strings: a number is the text it is written as, and a
string what stands between its quotes, escapes included. What they denote is asked for when it is
needed, since a reader may pass over parts of a document that it has no use for.

* `Json.unescape?` is the text that a string denotes, and `Json.escape` the spelling of a text;
* `Json.write` writes a document on one line and `Json.writeLines` on many.
-/

namespace Detour

/-- A document with the spelling of its numbers and strings. -/
inductive Json where
  /-- the literal `null` -/
  | null
  /-- a truth value -/
  | bool (b : Bool)
  /-- a number as it is written -/
  | number (spelling : Text)
  /-- what stands between the quotes of a string -/
  | string (spelling : Text)
  /-- a list of documents -/
  | array (elements : List Json)
  /-- a list of members: what stands between the quotes of a key, and a document -/
  | object (members : List (Text × Json))
deriving Repr

namespace Json

/-! ### Strings -/

/-- The character behind a backslash that stands for another one. -/
def unescaped? (c : Char) : Option Char :=
  match c with
  | '"' => some '"'
  | '\\' => some '\\'
  | '/' => some '/'
  | 'b' => some '\x08'
  | 'f' => some '\x0c'
  | 'n' => some '\n'
  | 'r' => some '\r'
  | 't' => some '\t'
  | _ => none

/-- Whether a code unit is the first or the second half of a character behind the first plane. -/
def isHigh (n : Nat) : Bool := 0xD800 ≤ n && n ≤ 0xDBFF

/-- Whether a code unit is the second half of a character behind the first plane. -/
def isLow (n : Nat) : Bool := 0xDC00 ≤ n && n ≤ 0xDFFF

/-- The text that a string denotes; `none` if it has half a character. -/
def unescape? : Text → Option Text
  | [] => some []
  | '\\' :: 'u' :: a :: b :: c :: d :: s =>
    match hexNumber? [a, b, c, d] with
    | none => none
    | some n =>
      if isHigh n then
        match s with
        | '\\' :: 'u' :: e :: f :: g :: h :: s =>
          match hexNumber? [e, f, g, h] with
          | some m =>
            if isLow m then
              (unescape? s).map (Char.ofNat (0x10000 + (n - 0xD800) * 1024 + (m - 0xDC00)) :: ·)
            else none
          | none => none
        | _ => none
      else if isLow n then none
      else (unescape? s).map (Char.ofNat n :: ·)
  | '\\' :: c :: s =>
    match unescaped? c with
    | some d => (unescape? s).map (d :: ·)
    | none => none
  | c :: s => (unescape? s).map (c :: ·)

/-- A number below 16 as a digit. -/
def hexDigit (n : Nat) : Char := Char.ofNat (if n < 10 then 48 + n else 87 + n)

/-- The spelling of a character in a string. -/
def escapeChar (c : Char) : Text :=
  match c with
  | '"' => ['\\', '"']
  | '\\' => ['\\', '\\']
  | '\x08' => ['\\', 'b']
  | '\x0c' => ['\\', 'f']
  | '\n' => ['\\', 'n']
  | '\r' => ['\\', 'r']
  | '\t' => ['\\', 't']
  | _ =>
    if c.toNat < 32 then
      ['\\', 'u', '0', '0', hexDigit (c.toNat / 16), hexDigit (c.toNat % 16)]
    else [c]

/-- The spelling of a text as a string. -/
def escape (s : Text) : Text := s.flatMap escapeChar

/-! ### Building documents -/

/-- A text as a document. -/
def ofText (s : Text) : Json := string (escape s)

/-- A number as a document. -/
def ofNat (n : Nat) : Json := number (writeNat n)

/-- A document or `null`. -/
def ofOption (f : α → Json) : Option α → Json
  | some a => f a
  | none => null

/-- A document with the given members. -/
def ofMembers (members : List (String × Json)) : Json :=
  object (members.map fun (k, v) => (escape k.toList, v))

/-! ### Reading off values -/

/-- The number of 64 bits that a document denotes: digits only. -/
def toUInt64? : Json → Option UInt64
  | number s => if s.all Char.isDigit then readUInt64? s else none
  | _ => none

/-- The text that a document denotes. -/
def toText? : Json → Option Text
  | string s => unescape? s
  | _ => none

/-! ### Writing -/

mutual

/-- A document on one line. -/
def write : Json → Text
  | null => "null".toList
  | bool b => (if b then "true" else "false").toList
  | number s => s
  | string s => ['"'] ++ s ++ ['"']
  | array elements => ['['] ++ writeElements elements ++ [']']
  | object members => ['\x7b'] ++ writeMembers members ++ ['\x7d']

/-- Documents with commas between them. -/
def writeElements : List Json → Text
  | [] => []
  | [e] => e.write
  | e :: rest => e.write ++ [','] ++ writeElements rest

/-- Members with commas between them. -/
def writeMembers : List (Text × Json) → Text
  | [] => []
  | [(k, v)] => ['"'] ++ k ++ ['"', ':'] ++ v.write
  | (k, v) :: rest => ['"'] ++ k ++ ['"', ':'] ++ v.write ++ [','] ++ writeMembers rest

end

/-- The beginning of a line at some depth. -/
def newLine (depth : Nat) : Text := '\n' :: List.replicate (2 * depth) ' '

mutual

/-- A document on many lines, of which the first is already begun at some depth. -/
def writeAt (depth : Nat) : Json → Text
  | array (e :: rest) =>
    ['['] ++ newLine (depth + 1) ++ writeAt (depth + 1) e ++ writeElementsAt (depth + 1) rest ++
      newLine depth ++ [']']
  | object ((k, v) :: rest) =>
    ['\x7b'] ++ newLine (depth + 1) ++ ['"'] ++ k ++ "\": ".toList ++ writeAt (depth + 1) v ++
      writeMembersAt (depth + 1) rest ++ newLine depth ++ ['\x7d']
  | array [] => ['[', ']']
  | object [] => ['\x7b', '\x7d']
  | null => "null".toList
  | bool b => (if b then "true" else "false").toList
  | number s => s
  | string s => ['"'] ++ s ++ ['"']

/-- Further documents of a list, each on a line of its own. -/
def writeElementsAt (depth : Nat) : List Json → Text
  | [] => []
  | e :: rest => [','] ++ newLine depth ++ writeAt depth e ++ writeElementsAt depth rest

/-- Further members of an object, each on a line of its own. -/
def writeMembersAt (depth : Nat) : List (Text × Json) → Text
  | [] => []
  | (k, v) :: rest =>
    [','] ++ newLine depth ++ ['"'] ++ k ++ "\": ".toList ++ writeAt depth v ++
      writeMembersAt depth rest

end

/-- A document on many lines, with two blanks for each level of nesting. -/
def writeLines (j : Json) : Text := writeAt 0 j

end Json

end Detour
