import Detour.Proofs.Cleaning
import Detour.Proofs.Decoding

/-!
# Cleaning and letter case

The full mode writes a cleaned value in small letters. So it does not matter which letters were capitals
at any stage before: every stage takes two texts that differ only in letter case to two such texts.

* Most stages commute with `Text.small`: `Text.rewrite_small` for walks, `Cleaning.between_small`,
  `Text.trimBoth_small`.
* Decoding and spelling bring in capitals of their own, with an escape or with the spelling of a letter.
  There it holds of the small letters of the results: `Cleaning.decode_small`,
  `Dictionary.spell_small`.
* `Cleaner.clean_of_small_eq` puts the stages together.
-/

namespace Detour

variable {p q : Char → Bool}

/-! ### Texts in small letters -/

/-- A class that ignores letter case holds of small letters as it does of the letters themselves. -/
theorem Caseless.comp {γ : Type} {f : Char → γ} (h : Caseless f) : f ∘ Char.toLower = f := funext h

namespace Text

variable {s t : Text}

/-- Characters are written in small letters one by one, -/
theorem small_cons (c : Char) (s : Text) : small (c :: s) = c.toLower :: small s := rfl

/-- and so are the parts of a text. -/
theorem small_append (s t : Text) : small (s ++ t) = small s ++ small t := List.map_append

/-- The leading characters of a class are the same ones. -/
theorem takeWhile_small (h : Caseless p) (s : Text) :
    s.small.takeWhile p = small (s.takeWhile p) := by
  rw [small, List.takeWhile_map, h.comp]
  rfl

/-- What stands behind them is the same part. -/
theorem dropWhile_small (h : Caseless p) (s : Text) :
    s.small.dropWhile p = small (s.dropWhile p) := by
  rw [small, List.dropWhile_map, h.comp]
  rfl

/-- The characters of a class are the same ones. -/
theorem filter_small (h : Caseless p) (s : Text) : s.small.filter p = small (s.filter p) := by
  rw [small, List.filter_map, h.comp]
  rfl

/-- Signs are taken off at the same places. -/
theorem trimBoth_small (h : Caseless p) (s : Text) : trimBoth p s.small = small (trimBoth p s) := by
  have hreverse : ∀ t : Text, t.small.reverse = small t.reverse := fun t => List.map_reverse.symm
  rw [trimBoth, trimBoth, trimStart, trimEnd, dropWhile_small h, hreverse, dropWhile_small h, hreverse]
  rfl

/-- A walk for constructs that are found in both letter cases. -/
theorem rewrite_small {β : Type} {form : Form β} {write : β → Text} {change : β → β}
    (hform : ∀ s : Text, form s.small = (form s).map fun found => (change found.1, found.2))
    (hwrite : ∀ meaning, write (change meaning) = small (write meaning)) (s : Text) :
    rewrite form write s.small = small (rewrite form write s) := by
  induction s using walk_induction form with
  | nil => rfl
  | plain c s hnone ih =>
    have hsmall : form (c.toLower :: small s) = none := by
      have hboth := hform (c :: s)
      rwa [hnone] at hboth
    rw [rewrite_cons _ hnone]
    exact (rewrite_cons _ hsmall).trans (congrArg _ ih)
  | hit c s meaning size hfound ih =>
    have hsmall : form (c.toLower :: small s) = some (change meaning, size) := by
      have hboth := hform (c :: s)
      rwa [hfound] at hboth
    have hbehind : (small s).drop (size - 1) = small (s.drop (size - 1)) := List.map_drop.symm
    rw [rewrite_hit _ hfound, small_append, ← hwrite, ← ih, ← hbehind]
    exact rewrite_hit _ hsmall

end Text

namespace Utf8

/-! ### Bytes of small letters -/

/-- The byte of the small letter, for the byte of a capital. -/
def smallByte (b : UInt8) : UInt8 := if 65 ≤ b && b ≤ 90 then b + 32 else b

/-- A byte that is not of ASCII stays. -/
theorem smallByte_of_le {b : UInt8} (h : 0x80 ≤ b) : smallByte b = b := by
  rw [smallByte, if_neg]
  have hlast : ¬ b ≤ 90 := UInt8.not_le.2 (UInt8.lt_of_lt_of_le (by decide : (90 : UInt8) < 0x80) h)
  simp [hlast]

/-- What holds of all bytes by number holds of every byte. -/
theorem of_bytes (P : UInt8 → Prop) (h : ∀ n : Fin 256, P n.val.toUInt8) (b : UInt8) : P b := by
  have hb := h ⟨b.toNat, UInt8.toNat_lt b⟩
  have hself : b.toNat.toUInt8 = b := UInt8.ofNat_toNat
  simpa only [hself] using hb

/-- A byte of ASCII becomes that of the small letter. -/
theorem smallByte_of_lt {b : UInt8} (h : b < 0x80) : smallByte b < 0x80 ∧
    Char.ofNat (smallByte b).toNat = (Char.ofNat b.toNat).toLower :=
  of_bytes (fun b => b < 0x80 → smallByte b < 0x80 ∧
    Char.ofNat (smallByte b).toNat = (Char.ofNat b.toNat).toLower) (by decide +kernel) b h

/-- The byte of a small letter stays. -/
theorem smallByte_smallByte (b : UInt8) : smallByte (smallByte b) = smallByte b :=
  of_bytes (fun b => smallByte (smallByte b) = smallByte b) (by decide +kernel) b

/-- A class of bytes that are not of ASCII. -/
theorem of_smallByte {P : UInt8 → Bool} (hP : ∀ b, P b → 0x80 ≤ b) (b : UInt8) :
    P (smallByte b) = P b := by
  by_cases hb : b < 0x80
  · have hnone : ∀ {d : UInt8}, d < 0x80 → P d = false := fun {d} hd => by
      rw [← Bool.not_eq_true]
      exact fun h => absurd (hP d h) (UInt8.not_le.2 hd)
    rw [hnone hb, hnone (smallByte_of_lt hb).1]
  · rw [smallByte_of_le (UInt8.not_lt.1 hb)]

/-- Numbers behind ASCII are not those of letters with another case in ASCII. -/
theorem toLower_ofNat {n : Nat} (h : 128 ≤ n) : (Char.ofNat n).toLower = Char.ofNat n := by
  rcases toNat_ofNat n with hn | hn
  · exact toLower_of_not_ascii (by omega)
  · have hzero : Char.ofNat n = Char.ofNat 0 := by rw [← Char.ofNat_toNat (Char.ofNat n), hn]
    rw [hzero]
    decide

/-- Continuing bytes are not of ASCII. -/
theorem le_of_isTail {b : UInt8} (h : isTail b) : 0x80 ≤ b := by
  rw [isTail, Bool.and_eq_true, decide_eq_true_eq] at h
  exact h.1

/-- Nor are those that stand second. -/
theorem le_of_isSecond {first b : UInt8} (h : isSecond first b) : 0x80 ≤ b := by
  rw [isSecond, Bool.and_eq_true, decide_eq_true_eq] at h
  refine UInt8.le_trans ?_ h.1
  split
  · decide
  split <;> decide

/-- A byte between two others is so by number. -/
theorem toNat_between {b lo hi : UInt8} (h : lo ≤ b && b ≤ hi) :
    lo.toNat ≤ b.toNat ∧ b.toNat ≤ hi.toNat := by
  rw [Bool.and_eq_true, decide_eq_true_eq, decide_eq_true_eq] at h
  exact h

/-- The number of a character of two bytes is behind ASCII. -/
theorem le_two {b : UInt8} (h : 0xC2 ≤ b && b ≤ 0xDF) (n : Nat) : 128 ≤ b.toNat % 32 * 64 + n := by
  have hb : 0xC2 ≤ b.toNat ∧ b.toNat ≤ 0xDF := toNat_between h
  omega

/-- So is the number of a character of three bytes, -/
theorem le_three {b c : UInt8} (h : 0xE0 ≤ b && b ≤ 0xEF) (hc : isSecond b c) (n : Nat) :
    128 ≤ b.toNat % 16 * 4096 + payload c * 64 + n := by
  have hb : 0xE0 ≤ b.toNat ∧ b.toNat ≤ 0xEF := toNat_between h
  by_cases hfirst : b = 0xE0
  · subst hfirst
    have hrange : 0xA0 ≤ c.toNat ∧ c.toNat ≤ 0xBF := toNat_between hc
    rw [payload]
    omega
  · have hne : b.toNat ≠ 0xE0 := fun hb => hfirst (UInt8.toNat_inj.1 hb)
    omega

/-- and of four bytes. -/
theorem le_four {b c : UInt8} (h : 0xF0 ≤ b && b ≤ 0xF4) (hc : isSecond b c) (m n : Nat) :
    128 ≤ b.toNat % 8 * 262144 + payload c * 4096 + m + n := by
  have hb : 0xF0 ≤ b.toNat ∧ b.toNat ≤ 0xF4 := toNat_between h
  by_cases hfirst : b = 0xF0
  · subst hfirst
    have hrange : 0x90 ≤ c.toNat ∧ c.toNat ≤ 0xBF := toNat_between hc
    rw [payload]
    omega
  · have hne : b.toNat ≠ 0xF0 := fun hb => hfirst (UInt8.toNat_inj.1 hb)
    omega

/-- The character at the front of the bytes of small letters is the small letter. -/
theorem front_small (b : UInt8) (bs : Bytes) :
    front (smallByte b) (bs.map smallByte) = ((front b bs).1.map Char.toLower, (front b bs).2) := by
  by_cases hb : b < 0x80
  · obtain ⟨hlt, hchar⟩ := smallByte_of_lt hb
    simp [front.eq_def, hb, hlt, hchar]
  rw [smallByte_of_le (UInt8.not_lt.1 hb)]
  -- the bytes of a longer character stay, and so does the character
  have htail : ∀ d, isTail (smallByte d) = isTail d := of_smallByte fun d => le_of_isTail
  have hsecond : ∀ d, isSecond b (smallByte d) = isSecond b d := of_smallByte fun d => le_of_isSecond
  rw [front.eq_def, front.eq_def b bs, if_neg hb, if_neg hb]
  split
  · rename_i htwo
    cases bs with
    | nil => rfl
    | cons c bs =>
      simp only [List.map_cons, htail]
      split
      · rename_i hc
        rw [smallByte_of_le (le_of_isTail hc)]
        simp [toLower_ofNat (le_two htwo _)]
      · rfl
  split
  · rename_i hthree
    cases bs with
    | nil => rfl
    | cons c bs =>
      simp only [List.map_cons, hsecond]
      split
      · rename_i hc
        cases bs with
        | nil => rfl
        | cons d bs =>
          simp only [List.map_cons, htail]
          split
          · rename_i hd
            rw [smallByte_of_le (le_of_isSecond hc), smallByte_of_le (le_of_isTail hd)]
            simp [toLower_ofNat (le_three hthree hc _)]
          · rfl
      · rfl
  split
  · rename_i hfour
    cases bs with
    | nil => rfl
    | cons c bs =>
      simp only [List.map_cons, hsecond]
      split
      · rename_i hc
        cases bs with
        | nil => rfl
        | cons d bs =>
          simp only [List.map_cons, htail]
          split
          · rename_i hd
            cases bs with
            | nil => rfl
            | cons e bs =>
              simp only [List.map_cons, htail]
              split
              · rename_i he
                rw [smallByte_of_le (le_of_isSecond hc), smallByte_of_le (le_of_isTail hd),
                  smallByte_of_le (le_of_isTail he)]
                simp [toLower_ofNat (le_four hfour hc _ _)]
              · rfl
          · rfl
      · rfl
  · rfl

/-- The characters of the bytes of small letters are the small letters. -/
theorem charsFrom_small (skip : Nat) (bs : Bytes) :
    charsFrom skip (bs.map smallByte) = (charsFrom skip bs).map (Option.map Char.toLower) := by
  induction bs generalizing skip with
  | nil => cases skip <;> rfl
  | cons b bs ih =>
    cases skip with
    | succ skip => exact ih skip
    | zero =>
      rw [List.map_cons, charsFrom, front_small, charsFrom]
      exact congrArg _ (ih _)

/-- **Bytes of small letters are read as small letters.** -/
theorem decodeLossy_small (bs : Bytes) : decodeLossy (bs.map smallByte) = (decodeLossy bs).small := by
  have hmark : ∀ c : Option Char, (c.map Char.toLower).getD '\ufffd' = (c.getD '\ufffd').toLower := by
    intro c
    cases c with
    | none => decide
    | some c => rfl
  rw [decodeLossy, charsFrom_small, List.map_map, Text.small, decodeLossy, List.map_map]
  exact List.map_congr_left fun c _ => hmark c

/-- The bytes of a small letter are those of the letter, made small. -/
theorem encodeChar_small (c : Char) : encodeChar c.toLower = (encodeChar c).map smallByte := by
  by_cases hc : c.toNat < 128
  · exact Cleaning.of_ascii (fun c => encodeChar c.toLower = (encodeChar c).map smallByte)
      (by decide +kernel) hc
  · have hkept : ∀ b ∈ encodeChar c, smallByte b = b := fun b hb => by
      refine smallByte_of_le (UInt8.not_lt.1 fun hlt => hc ?_)
      have hbyte : b.toNat < 128 := hlt
      rw [toNat_of_mem_encodeChar hb hbyte]
      exact hbyte
    rw [toLower_of_not_ascii hc, List.map_congr_left hkept, List.map_id']

end Utf8

namespace Cleaning

variable {s : Text}

/-! ### Stages that bring in capitals -/

/-- An escape denotes the same byte in both letter cases. -/
theorem escapeForm_small (s : Text) : escapeForm s.small = escapeForm s :=
  escapeForm_map (toLower_eq_iff (by decide)) caseless_hexValue? s

/-- A value denotes the same bytes in small letters, but for letter case. -/
theorem bytes_small (s : Text) : (bytes s.small).map Utf8.smallByte = (bytes s).map Utf8.smallByte := by
  have hunplus : ∀ c, unplus c.toLower = (unplus c).toLower := fun c => by
    rw [unplus, unplus, ite_congr (propext (toLower_eq_iff (by decide) c)) (fun _ => rfl) fun _ => rfl]
    split <;> rfl
  induction s using Text.walk_induction escapeForm with
  | nil => rfl
  | plain c s hnone ih =>
    have hsmall : escapeForm (c.toLower :: Text.small s) = none :=
      (escapeForm_small (c :: s)).trans hnone
    have hbytes := bytes_plain hsmall
    rw [hunplus, Utf8.encodeChar_small] at hbytes
    rw [bytes_plain hnone, List.map_append, ← ih]
    change (bytes (c.toLower :: Text.small s)).map _ = _
    rw [hbytes, List.map_append, List.map_map]
    congr 1
    exact List.map_congr_left fun b _ => Utf8.smallByte_smallByte b
  | hit c s b size hfound ih =>
    have hsmall : escapeForm (c.toLower :: Text.small s) = some (b, size) :=
      (escapeForm_small (c :: s)).trans hfound
    have hbehind : (Text.small s).drop (size - 1) = Text.small (s.drop (size - 1)) := List.map_drop.symm
    have hbytes := bytes_hit hsmall
    rw [hbehind] at hbytes
    rw [bytes_hit hfound, List.map_cons, ← ih]
    exact congrArg _ hbytes

/-- **Values in small letters** are decoded to the same text, but for letter case. -/
theorem decode_small (s : Text) : (decode s.small).small = (decode s).small := by
  rw [decode_eq, decode_eq, ← Utf8.decodeLossy_small, bytes_small, Utf8.decodeLossy_small]

end Cleaning

namespace Dictionary

open Transliteration Cleaning

variable (dictionary : Dictionary)

/-- Whether a spelling begins with a space has nothing to do with letter case: a space in front of a
spelling of ASCII is the space itself. -/
theorem caseless_blank : Caseless fun c => (dictionary.spelling c).head? == some ' ' := by
  intro c
  by_cases hc : c.toNat < 128
  · have hlower : c.toLower.toNat < 128 := of_ascii (fun c => c.toLower.toNat < 128) (by decide) hc
    dsimp only
    rw [dictionary.spelling_ascii hc, dictionary.spelling_ascii hlower]
    exact of_ascii (fun c => ([c.toLower].head? == some ' ') = ([c].head? == some ' ')) (by decide) hc
  · rw [toLower_of_not_ascii hc]

/-- **Texts in small letters** are spelled with the same letters, but for letter case. -/
theorem spell_small (s : Text) : (dictionary.spell s.small).small = (dictionary.spell s).small := by
  induction s with
  | nil => rfl
  | cons c s ih =>
    have hnext : ∀ here, fit here ((Text.small s).head?.map dictionary.spelling) =
        fit here (s.head?.map dictionary.spelling) := by
      intro here
      cases s with
      | nil => rfl
      | cons d s =>
        have hd : ((dictionary.spelling d.toLower).head? == some ' ') =
            ((dictionary.spelling d).head? == some ' ') := dictionary.caseless_blank d
        simp only [fit, Text.small_cons, List.head?_cons, Option.map_some, hd]
        rfl
    have hhere : Text.small (fit (dictionary.spelling c.toLower) (s.head?.map dictionary.spelling)) =
        Text.small (fit (dictionary.spelling c) (s.head?.map dictionary.spelling)) := by
      by_cases hc : c.toNat < 128
      · have hlower : c.toLower.toNat < 128 := of_ascii (fun c => c.toLower.toNat < 128) (by decide) hc
        rw [dictionary.spelling_ascii hc, dictionary.spelling_ascii hlower]
        simp [fit, Text.small]
      · rw [toLower_of_not_ascii hc]
    rw [Text.small_cons, spell, hnext, Text.small_append, hhere, ih, spell, Text.small_append]

end Dictionary

namespace Cleaning

/-! ### Stages that keep letters -/

/-- Codes are found at the same places. -/
theorem codeForm_small (s : Text) :
    codeForm s.small = (codeForm s).map fun found => (Text.small found.1, found.2) := by
  have hmark : Caseless fun c => c = 'u' || c = 'U' := caseless_of_ascii (by decide)
  match s with
  | [] => rfl
  | c :: s =>
    by_cases hc : c = '%'
    swap
    · rw [Text.small_cons, codeForm_cons hc, codeForm_cons ((toLower_eq_iff (by decide) c).not.2 hc)]
      rfl
    subst hc
    match s with
    | [] => rfl
    | u :: s =>
      have hpercent : Char.toLower '%' = '%' := by decide
      have hu : (decide (u.toLower = 'u') || decide (u.toLower = 'U')) =
        (decide (u = 'u') || decide (u = 'U')) := hmark u
      have htake : (Text.small s).take 4 = Text.small (s.take 4) := List.map_take.symm
      rw [Text.small_cons, Text.small_cons, hpercent]
      simp only [codeForm, hu, htake, Text.takeWhile_small caseless_isHex, Text.length_small]
      split <;> rfl

/-- References are written with the same digits. -/
theorem references_small (s : Text) : references s.small = (references s).small := by
  refine Text.rewrite_small codeForm_small (fun digits => ?_) s
  simp [Text.small]

/-- Gaps are found at the same places. -/
theorem gapForm_small (s : Text) :
    gapForm s.small = (gapForm s).map fun found => (id found.1, found.2) := by
  have hgap : Caseless fun c => !isKept c := fun c => congrArg _ (caseless_isKept c)
  have hnone : (Text.small (s.takeWhile fun c => !isKept c)).isEmpty =
      (s.takeWhile fun c => !isKept c).isEmpty := List.isEmpty_map
  simp only [gapForm, Text.takeWhile_small hgap, hnone, Text.length_small]
  split <;> rfl

/-- They are written as the same hyphens. -/
theorem hyphens_small (s : Text) : hyphens s.small = (hyphens s).small :=
  Text.rewrite_small gapForm_small (fun _ => rfl) s

variable {p q : Char → Bool}

/-- Neighbours are written apart at the same places. -/
theorem between_small (hp : Caseless p) (hq : Caseless q) (s : Text) :
    between p q s.small = (between p q s).small := by
  induction s with
  | nil => rfl
  | cons c s ih =>
    have hnext : (Text.small s).head?.any q = s.head?.any q := by
      cases s with
      | nil => rfl
      | cons d s => exact hq d
    have hrung : rung p q c.toLower (Text.small s) = Text.small (rung p q c s) := by
      rw [rung, rung, hp c, hnext]
      by_cases h : p c && s.head?.any q
      · rw [if_pos h]
        rfl
      · rw [if_neg h]
        rfl
    rw [Text.small_cons, between_cons, hrung, ih, between_cons, Text.small_cons, Text.small_append]

end Cleaning

namespace Cleaner

open Cleaning

/-- Small letters are finished to small letters. -/
theorem finish_small (k : Cleaner) (s : Text) : k.finish s.small = (k.finish s).small := by
  have hnumbers : (if k.enhanced then numbersApart s.small else s.small) =
      Text.small (if k.enhanced then numbersApart s else s) := by
    split
    · rw [numbersApart, between_small caseless_isAlpha Cleaning.caseless_isDigit,
        between_small Cleaning.caseless_isDigit caseless_isAlpha, numbersApart]
    · rfl
  rw [finish, hnumbers, Text.trimBoth_small caseless_hyphen, Text.filter_small caseless_isAllowed]
  rfl

/-- **Full cleaning does not see letter case**, once words have been written apart: values that have then
become the same but for letter case are cleaned alike. -/
theorem clean_of_small_eq (k : Cleaner) {v w : Text} (h : (k.split v).small = (k.split w).small) :
    k.clean true v = k.clean true w := by
  have hclean : ∀ u, k.clean true u = k.finish (Text.small (k.dictionary.spell
      (hyphens (references (Text.small (decode (k.split u))))))) := fun u => by
    rw [clean_eq, if_pos rfl, spelled, gapped, references_small, hyphens_small,
      Dictionary.spell_small, finish_small]
    rfl
  rw [hclean, hclean, ← decode_small, h, decode_small]

end Cleaner

end Detour
