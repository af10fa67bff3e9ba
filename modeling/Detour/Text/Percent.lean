import Detour.Text.Digits
import Detour.Text.Utf8

/-!
# Percent escapes

A byte of a text may be written as `%` and two digits in base sixteen. A percent sign that two such
digits do not follow stands for itself.
-/

namespace Detour

/-- The bytes of a text with every percent escape replaced by the byte it denotes. -/
def percentBytes : Text → Bytes
  | [] => []
  | '%' :: a :: b :: s =>
    match hexValue? a, hexValue? b with
    | some high, some low => (16 * high + low).toUInt8 :: percentBytes s
    | _, _ => Utf8.encodeChar '%' ++ percentBytes (a :: b :: s)
  | c :: s => Utf8.encodeChar c ++ percentBytes s

end Detour
