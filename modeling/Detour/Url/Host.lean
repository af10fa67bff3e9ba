import Detour.Text.Category
import Detour.Text.Percent

/-!
# Hosts of URLs

Which texts may stand as the host of a URL. In the schemes of the web a host is a domain, whose
percent escapes are decoded first, or an IP address: in square brackets the long form, and the short
form as soon as the last label of a domain is a number. In other schemes a host is opaque, and only a
few signs are ruled out.
-/

namespace Detour

namespace Url

/-! ### Short addresses -/

/-- A part of a short address: decimal, octal behind `0`, or in base sixteen behind `0x`; `none` if
it is no number. -/
def addressPart? (s : Text) : Option Nat :=
  match s with
  | [] => none
  | '0' :: x :: digits =>
    if x = 'x' || x = 'X' then
      if digits.all isHex then some (hexadecimal digits) else none
    else if (x :: digits).all fun c => '0' ≤ c && c ≤ '7' then
      some (numberOf 8 (fun c => c.toNat - '0'.toNat) (x :: digits))
    else none
  | digits => if digits.all Char.isDigit then some (decimal digits) else none

/-- The labels of a domain, without the empty one behind a last dot. -/
def labels (domain : Text) : List Text :=
  let all := Text.split '.' domain
  if all.length > 1 && all.getLast? == some [] then all.dropLast else all

/-- Whether a domain has to be a short address: its last label is a number. -/
def endsInNumber (domain : Text) : Bool :=
  match (labels domain).getLast? with
  | some last => (!last.isEmpty && last.all Char.isDigit) || (addressPart? last).isSome
  | none => false

/-- Whether a text is a short address: at most four numbers, of which the last fills all bytes that
the others leave. -/
def isShortAddress (s : Text) : Bool :=
  let parts := labels s
  match parts.mapM addressPart? with
  | none => false
  | some numbers =>
    numbers.length ≤ 4 && numbers.dropLast.all (· ≤ 255) &&
      numbers.getLast?.any fun n => n < 1 <<< (8 * (5 - numbers.length))

/-! ### Long addresses -/

/-- Whether a text is the last part of a long address written as four decimal bytes. -/
def isQuad (s : Text) : Bool :=
  let parts := Text.split '.' s
  parts.length == 4 && parts.all fun p =>
    !p.isEmpty && p.all Char.isDigit && (p.length == 1 || p.head? != some '0') && decimal p ≤ 255

/-- Whether a text continues a long address of which `pieces` of eight are read; `gap` tells whether
two colons have stood for missing pieces. Every round reads a character, so that `fuel` need not
exceed their number. -/
def isLongFrom : (fuel pieces : Nat) → (gap : Bool) → Text → Bool
  | 0, _, _, _ => false
  | _ + 1, pieces, gap, [] => gap || pieces == 8
  | fuel + 1, pieces, gap, ':' :: s =>
    if pieces == 8 || gap then false else isLongFrom fuel (pieces + 1) true s
  | fuel + 1, pieces, gap, s =>
    if pieces == 8 then false
    else
      let digits := (s.take 4).takeWhile isHex
      match s.drop digits.length with
      | [] => gap || pieces + 1 == 8
      | '.' :: _ => !digits.isEmpty && pieces ≤ 6 && (gap || pieces == 6) && isQuad s
      | ':' :: rest => !rest.isEmpty && isLongFrom fuel (pieces + 1) gap rest
      | _ => false

/-- Whether a text is a long address. -/
def isLongAddress (s : Text) : Bool :=
  match s with
  | ':' :: ':' :: rest => isLongFrom (s.length + 1) 1 true rest
  | ':' :: _ => false
  | _ => s.length > 1 && isLongFrom (s.length + 1) 0 false s

/-! ### Domains and opaque hosts -/

/-- The form that a character of a domain is reduced to: wide forms of ASCII become ASCII, other full
stops become dots, and characters without a shape are dropped. -/
def reduce (c : Char) : Text :=
  let n := c.toNat
  if 0xFF01 ≤ n && n ≤ 0xFF5E then [Char.ofNat (n - 0xFEE0)]
  else if n = 0x3002 || n = 0xFF61 then ['.']
  else if n = 0xAD || n = 0x200B || n = 0x2060 || n = 0xFEFF || (0xFE00 ≤ n && n ≤ 0xFE0F) then []
  else [c]

/-- Whether a character may stand in a domain. -/
def isDomainChar (c : Char) : Bool :=
  if c.toNat < 128 then
    32 < c.toNat && c.toNat < 127 && !"%#/:<>?@[\\]^|".toList.contains c
  else !(Category.separator.holds c || Category.other.holds c)

/-- Whether a text, its percent escapes decoded, is a domain or a short address. -/
def isDomain (s : Text) : Bool :=
  match Utf8.decode? (percentBytes s) with
  | none => false
  | some decoded =>
    let domain := decoded.flatMap reduce
    !domain.isEmpty && domain.all isDomainChar &&
      (Text.split '.' domain).all (fun label => !label.head?.any Category.mark.holds) &&
      (!endsInNumber domain || isShortAddress domain)

/-- Whether a text stands in square brackets, and between them a long address; `none` if it does not
begin with a bracket. -/
def isBracketed? (s : Text) : Option Bool :=
  match s with
  | '[' :: rest => some (rest.getLast? == some ']' && isLongAddress rest.dropLast)
  | _ => none

/-- Whether a text is a host in the schemes of the web. -/
def isHost (s : Text) : Bool := (isBracketed? s).getD (isDomain s)

/-- Whether a text is a host in other schemes, where it may be empty. -/
def isOpaqueHost (s : Text) : Bool :=
  (isBracketed? s).getD
    (s.all fun c => c != '\x00' && !"\t\n\r #/:<>?@[\\]^|".toList.contains c)

end Url

end Detour
