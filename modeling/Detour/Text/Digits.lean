import Detour.Text.Basic

/-!
# Numbers in texts

Decimal and hexadecimal numbers as they are written in patterns, destinations and files. Digits are
those of ASCII.
-/

namespace Detour

/-- The value of a digit in base sixteen. -/
def hexValue? (c : Char) : Option Nat :=
  if '0' ≤ c && c ≤ '9' then some (c.toNat - '0'.toNat)
  else if 'a' ≤ c && c ≤ 'f' then some (c.toNat - 'a'.toNat + 10)
  else if 'A' ≤ c && c ≤ 'F' then some (c.toNat - 'A'.toNat + 10)
  else none

/-- Whether a character is a digit in base sixteen. -/
def isHex (c : Char) : Bool := (hexValue? c).isSome

/-- The number that digits denote, given what each is worth. -/
def numberOf (base : Nat) (value : Char → Nat) (digits : Text) : Nat :=
  digits.foldl (fun n c => base * n + value c) 0

/-- The number that decimal digits denote. -/
def decimal (digits : Text) : Nat := numberOf 10 (fun c => c.toNat - '0'.toNat) digits

/-- The number that digits in base sixteen denote. -/
def hexadecimal (digits : Text) : Nat := numberOf 16 (fun c => (hexValue? c).getD 0) digits

/-- The number that digits in base sixteen denote; at least one digit, and nothing else. -/
def hexNumber? (s : Text) : Option Nat :=
  if s.isEmpty || !s.all isHex then none else some (hexadecimal s)

/-- A number as decimal digits. -/
def writeNat (n : Nat) : Text := Nat.toDigits 10 n

/-- A number as at least `width` decimal digits. -/
def writePadded (width n : Nat) : Text :=
  let digits := writeNat n
  List.replicate (width - digits.length) '0' ++ digits

/-- The number that a text denotes: decimal digits, at most one plus sign before them, and a value
that fits in 64 bits. -/
def readUInt64? (s : Text) : Option UInt64 :=
  let digits := (Text.after? ['+'] s).getD s
  if digits.isEmpty || !digits.all Char.isDigit then none
  else if decimal digits < UInt64.size then some (UInt64.ofNat (decimal digits))
  else none

end Detour
