import Detour.Text.Basic

/-!
# UTF-8

Texts as sequences of bytes. `Utf8.front` reads the character at the front of a sequence, or says how
many bytes form no character: the longest beginning of a character that could not be continued, at
least one byte. Strict reading refuses such bytes, and lenient reading writes the replacement
character for each group of them.
-/

namespace Detour

/-- A sequence of bytes. -/
abbrev Bytes := List UInt8

namespace Utf8

/-- The bytes of a character. -/
def encodeChar (c : Char) : Bytes :=
  let n := c.toNat
  if n < 0x80 then [n.toUInt8]
  else if n < 0x800 then [(0xC0 + n / 64).toUInt8, (0x80 + n % 64).toUInt8]
  else if n < 0x10000 then
    [(0xE0 + n / 4096).toUInt8, (0x80 + n / 64 % 64).toUInt8, (0x80 + n % 64).toUInt8]
  else
    [(0xF0 + n / 262144).toUInt8, (0x80 + n / 4096 % 64).toUInt8, (0x80 + n / 64 % 64).toUInt8,
      (0x80 + n % 64).toUInt8]

/-- The bytes of a text. -/
def encode (s : Text) : Bytes := s.flatMap encodeChar

/-- Whether a byte can continue a character. -/
def isTail (b : UInt8) : Bool := 0x80 ≤ b && b ≤ 0xBF

/-- Whether a byte can stand second behind the first byte of a long character: overlong forms,
surrogates and numbers behind the last code point are ruled out here. -/
def isSecond (first b : UInt8) : Bool :=
  (if first = 0xE0 then 0xA0 else if first = 0xF0 then 0x90 else 0x80) ≤ b &&
    b ≤ (if first = 0xED then 0x9F else if first = 0xF4 then 0x8F else 0xBF)

/-- The six bits that a continuing byte carries. -/
def payload (b : UInt8) : Nat := b.toNat % 64

/-- The character at the front, if there is one, and the number of bytes read. -/
def front (first : UInt8) (rest : Bytes) : Option Char × Nat :=
  if first < 0x80 then (some (Char.ofNat first.toNat), 1)
  else if 0xC2 ≤ first && first ≤ 0xDF then
    match rest with
    | b :: _ =>
      if isTail b then (some (Char.ofNat (first.toNat % 32 * 64 + payload b)), 2) else (none, 1)
    | [] => (none, 1)
  else if 0xE0 ≤ first && first ≤ 0xEF then
    match rest with
    | b :: rest =>
      if isSecond first b then
        match rest with
        | c :: _ =>
          if isTail c then
            (some (Char.ofNat (first.toNat % 16 * 4096 + payload b * 64 + payload c)), 3)
          else (none, 2)
        | [] => (none, 2)
      else (none, 1)
    | [] => (none, 1)
  else if 0xF0 ≤ first && first ≤ 0xF4 then
    match rest with
    | b :: rest =>
      if isSecond first b then
        match rest with
        | c :: rest =>
          if isTail c then
            match rest with
            | d :: _ =>
              if isTail d then
                (some (Char.ofNat (first.toNat % 8 * 262144 + payload b * 4096 + payload c * 64 +
                  payload d)), 4)
              else (none, 3)
            | [] => (none, 3)
          else (none, 2)
        | [] => (none, 2)
      else (none, 1)
    | [] => (none, 1)
  else (none, 1)

/-- The characters of a sequence of bytes, `none` standing for bytes that form no character. The
first argument counts the bytes that still belong to what was read last. -/
def charsFrom : Nat → Bytes → List (Option Char)
  | _, [] => []
  | skip + 1, _ :: bytes => charsFrom skip bytes
  | 0, b :: bytes =>
    let (c, size) := front b bytes
    c :: charsFrom (size - 1) bytes

/-- The text of a sequence of bytes, if all of it is well formed. -/
def decode? (bytes : Bytes) : Option Text := (charsFrom 0 bytes).mapM id

/-- The text of a sequence of bytes, with the replacement character for what is not well formed. -/
def decodeLossy (bytes : Bytes) : Text := (charsFrom 0 bytes).map fun c => c.getD '\ufffd'

end Utf8

end Detour
