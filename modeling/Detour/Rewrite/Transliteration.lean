import Detour.Text.Basic

/-!
# Transliteration

Letters outside ASCII written with letters of ASCII. Characters of ASCII stand for themselves, and how other
letters are spelled is up to a `Dictionary`. Ideographs are written as words with a space behind them; that
space is dropped where the text ends or where the next letter brings a space of its own.

What is said of spelled texts holds for every dictionary.
-/

namespace Detour

/-- A spelling in front of the rest of the text: the last of several characters is dropped if it is a
space and the text ends or goes on with a space. -/
def Transliteration.fit (here : Text) (next : Option Text) : Text :=
  let closes := match next with
    | none => true
    | some s => s.head? == some ' '
  if here.length > 1 && here.getLast? == some ' ' && closes then here.dropLast else here

/-- How letters outside ASCII are spelled. -/
class Dictionary where
  /-- the spelling of a letter -/
  letter : Char → Text

namespace Dictionary

variable (d : Dictionary)

/-- The spelling of a character. -/
def spelling (c : Char) : Text := if c.toNat < 128 then [c] else d.letter c

/-- The spelling of a text. -/
def spell : Text → Text
  | [] => []
  | c :: s => Transliteration.fit (d.spelling c) (s.head?.map d.spelling) ++ spell s

/-- A character of ASCII is its own spelling. -/
theorem spelling_ascii {c : Char} (h : c.toNat < 128) : d.spelling c = [c] := if_pos h

/-- A text of ASCII is its own spelling. -/
theorem spell_ascii {s : Text} (h : ∀ c ∈ s, c.toNat < 128) : d.spell s = s := by
  induction s with
  | nil => rfl
  | cons c s ih =>
    have hc : d.spelling c = [c] := d.spelling_ascii (h c List.mem_cons_self)
    simp [spell, hc, Transliteration.fit, ih fun e he => h e (List.mem_cons_of_mem _ he)]

end Dictionary

end Detour
