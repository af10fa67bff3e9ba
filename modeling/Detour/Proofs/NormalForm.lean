import Detour.Proofs.Camel
import Detour.Proofs.Cleaning
import Detour.Proofs.Decoding

/-!
# The normal form of cleaned values

A cleaned value is in a normal form, and a value in normal form is left as it is: so a value that was
cleaned once is not changed by cleaning it again.

* `Cleaning.IsPlain`: values of ASCII with escapes of ASCII only. Writing words apart keeps them plain,
  and decoding them gives ASCII.
* `Cleaning.Tidy` and `Cleaner.Normal`: the normal form, without and with what the mode asks for.
  `Cleaning.tidy_trimBoth` and `Cleaning.isChain_numbersApart` are the stages that bring it about.
* `Cleaner.normal_apply` and `Cleaner.apply_of_normal` are the two halves, `Cleaner.apply_idempotent` puts
  them together.
-/

namespace Detour

namespace Cleaning

variable {s : Text}

/-! ### Plain values -/

/-- A value of ASCII whose percent escapes are of ASCII. -/
structure IsPlain (value : Text) : Prop where
  /-- every character is of ASCII -/
  ascii : ∀ c ∈ value, c.toNat < 128
  /-- every escape is of a byte of ASCII -/
  escapes : ∀ high low m n, ['%', high, low] <:+: value → hexValue? high = some m →
    hexValue? low = some n → 16 * m + n < 128

/-- A part of a plain value is plain. -/
theorem IsPlain.of_infix {t : Text} (h : IsPlain t) (hs : s <:+: t) : IsPlain s where
  ascii c hc := h.ascii c (hs.subset hc)
  escapes high low m n hescape := h.escapes high low m n (hescape.trans hs)

/-- Words written apart, a plain value is plain: no escape comes in. -/
theorem IsPlain.spread {value : Text} (h : IsPlain value) : IsPlain (Camel.spread value) := by
  refine ⟨fun c hc => ?_, fun high low m n hescape hhigh hlow => ?_⟩
  · rcases Camel.mem_spread hc with rfl | ⟨d, hd, rfl | rfl⟩
    · decide
    · exact h.ascii c hd
    · exact of_ascii (fun d => d.toLower.toNat < 128) (by decide) (h.ascii d hd)
  · -- the escape stands behind a percent sign of the value
    obtain ⟨front, back, hsplit⟩ := hescape
    have hbehind : Camel.spread value = front ++ '%' :: (high :: low :: back) := by
      rw [← hsplit]
      simp
    obtain ⟨first, last, rfl, hlast⟩ := Camel.exists_of_spread (by decide) (by decide) hbehind
    have hhead := Camel.head?_spread last
    rw [hlast] at hhead
    cases last with
    | nil => exact absurd hhead (by simp)
    | cons a last =>
      obtain rfl : high = a := Option.some.inj hhead
      have hhex : isHex high := by rw [isHex, hhigh]; rfl
      cases last with
      | nil =>
        have hlone : Camel.spread [high] = [high] := Camel.spread_cons high rfl
        exact absurd (hlast.symm.trans hlone) (by simp)
      | cons b last =>
        -- and its second digit is that of the value, in whatever letter case
        have hvalue : hexValue? b = some n := by
          rcases Camel.second_spread (isWordSign_of_isHex hhex) hlast with rfl | rfl | rfl
          · exact hlow
          · rwa [caseless_hexValue? b] at hlow
          · exact absurd (hlow.symm.trans (by decide : hexValue? '-' = none)) (by simp)
        exact h.escapes high b m n ⟨first, last, by simp⟩ hhigh hvalue

/-- A character of ASCII is a byte of ASCII. -/
theorem lt_of_mem_encodeChar {c : Char} {b : UInt8} (hc : c.toNat < 128)
    (hb : b ∈ Utf8.encodeChar (unplus c)) : b < 0x80 := by
  have hall : (Utf8.encodeChar (unplus c)).all (· < 0x80) :=
    of_ascii (fun c => (Utf8.encodeChar (unplus c)).all (· < 0x80)) (by decide +kernel) hc
  simpa using List.all_eq_true.1 hall b hb

/-- The bytes of a plain value are of ASCII. -/
theorem IsPlain.lt_of_mem_bytes {b : UInt8} (h : IsPlain s) (hb : b ∈ bytes s) : b < 0x80 := by
  induction s using Text.walk_induction escapeForm with
  | nil => exact absurd hb List.not_mem_nil
  | plain c s hnone ih =>
    rw [bytes_plain hnone, List.mem_append] at hb
    rcases hb with hb | hb
    · exact lt_of_mem_encodeChar (h.ascii c List.mem_cons_self) hb
    · exact ih (h.of_infix (List.suffix_cons c s).isInfix) hb
  | hit c s meaning size hfound ih =>
    rw [bytes_hit hfound] at hb
    rcases List.mem_cons.1 hb with rfl | hb
    · obtain ⟨high, low, rest, m, n, hs, hhigh, hlow, rfl, -⟩ := escapeForm_eq_some hfound
      have hsmall : 16 * m + n < 128 :=
        h.escapes high low m n ⟨[], rest, by rw [hs]; rfl⟩ hhigh hlow
      rw [UInt8.lt_iff_toNat_lt, Utf8.toNat_toUInt8 (by omega)]
      exact hsmall
    · exact ih (h.of_infix ((List.drop_suffix _ s).trans (List.suffix_cons c s)).isInfix) hb

/-- A plain value is decoded to characters of ASCII. -/
theorem IsPlain.ascii_of_mem_decode {c : Char} (h : IsPlain s) (hc : c ∈ decode s) :
    c.toNat < 128 := by
  rw [decode_eq, Utf8.decodeLossy_ascii fun b hb => h.lt_of_mem_bytes hb] at hc
  obtain ⟨b, hb, rfl⟩ := List.mem_map.1 hc
  have hlt : b.toNat < 128 := h.lt_of_mem_bytes hb
  rcases toNat_ofNat b.toNat with heq | heq <;> omega

/-- References are written with digits and signs of ASCII. -/
theorem ascii_of_mem_references {c : Char} (h : ∀ d ∈ s, d.toNat < 128) (hc : c ∈ references s) :
    c.toNat < 128 := by
  induction s using Text.walk_induction codeForm with
  | nil => exact absurd hc List.not_mem_nil
  | plain d s hnone ih =>
    rw [references, Text.rewrite_cons _ hnone, List.mem_cons] at hc
    rcases hc with rfl | hc
    · exact h c List.mem_cons_self
    · exact ih (fun e he => h e (List.mem_cons_of_mem d he)) hc
  | hit d s digits size hfound ih =>
    rw [references, Text.rewrite_hit _ hfound, List.mem_append, List.mem_append, List.mem_append] at hc
    rcases hc with ((hc | hc) | hc) | hc
    · have hsigns : ∀ e ∈ "&#x".toList, e.toNat < 128 := by simp
      exact hsigns c hc
    · exact ascii_of_isHex (isHex_of_codeForm hfound hc)
    · rw [List.mem_singleton.1 hc]
      decide
    · exact ih (fun e he => h e (List.mem_cons_of_mem d ((List.drop_suffix _ s).subset he))) hc

/-! ### The normal form -/

/-- The signs of cleaned values: letters, digits, slashes and hyphens. -/
def IsSign (c : Char) : Prop := c.isAlphanum ∨ c = '/' ∨ c = '-'

instance (c : Char) : Decidable (IsSign c) := inferInstanceAs (Decidable (_ ∨ _))

/-- A hyphen is one. -/
theorem isSign_hyphen : IsSign '-' := .inr (.inr rfl)

/-- They are of ASCII, so that what holds of each of them can be looked up. -/
theorem of_isSign (P : Char → Prop) (hP : ∀ n : Fin 128, IsSign (Char.ofNat n) → P (Char.ofNat n))
    {c : Char} (hc : IsSign c) : P c := by
  have hascii : c.toNat < 128 := by
    rcases hc with hword | rfl | rfl
    · exact ascii_of_isAlphanum hword
    · decide
    · decide
  exact of_ascii (fun c => IsSign c → P c) hP hascii hc

/-- Values of such signs, with lone hyphens and none of them at an end. -/
structure Tidy (value : Text) : Prop where
  /-- letters, digits, slashes and hyphens are all that stands there -/
  signs : ∀ c ∈ value, IsSign c
  /-- no hyphen stands in front -/
  first : value.head? ≠ some '-'
  /-- no hyphen stands at the end -/
  last : value.getLast? ≠ some '-'
  /-- no hyphen stands next to another -/
  lone : value.IsChain Lone

/-- With the hyphens at its ends taken off, a text of signs and lone hyphens is tidy. -/
theorem tidy_trimBoth (hsigns : ∀ c ∈ s, IsSign c) (hlone : s.IsChain Lone) :
    Tidy (Text.trimBoth (· == '-') s) := by
  obtain ⟨-, -, -, -, -, hfirst, hlast⟩ := Text.exists_trimBoth (· == '-') s
  have hpart := Text.trimBoth_infix (· == '-') s
  exact ⟨fun c hc => hsigns c (hpart.subset hc), fun h => absurd (hfirst '-' h) (by decide),
    fun h => absurd (hlast '-' h) (by decide), List.IsChain.infix hlone hpart⟩

/-- All of its signs may stand in a cleaned value. -/
theorem Tidy.filter_eq_self (h : Tidy s) : s.filter isAllowed = s :=
  List.filter_eq_self.2 fun c hc => of_isSign (fun c => isAllowed c) (by decide) (h.signs c hc)

/-- It is tidy in small letters as well. -/
theorem Tidy.small (h : Tidy s) : Tidy s.small where
  signs c hc := by
    obtain ⟨d, hd, rfl⟩ := List.mem_map.1 hc
    exact of_isSign (fun d => IsSign d.toLower) (by decide) (h.signs d hd)
  first hfirst := by
    rw [Text.small, List.head?_map, map_toLower_eq_some_iff (by decide)] at hfirst
    exact h.first hfirst
  last hlast := by
    rw [Text.small, List.getLast?_map, map_toLower_eq_some_iff (by decide)] at hlast
    exact h.last hlast
  lone := by
    have hhyphen : ∀ c : Char, c.toLower = '-' ↔ c = '-' := toLower_eq_iff (by decide)
    rw [Text.small, List.isChain_map]
    refine h.lone.imp fun a b hab => ?_
    rwa [Lone, hhyphen, hhyphen]

/-- Two characters that are not a letter and a digit. -/
def Apart (a b : Char) : Prop := ¬ (a.isAlpha ∧ b.isDigit) ∧ ¬ (a.isDigit ∧ b.isAlpha)

/-- Letters and digits stand apart in small letters as well. -/
theorem isChain_apart_small (h : s.IsChain Apart) : s.small.IsChain Apart := by
  rw [Text.small, List.isChain_map]
  refine h.imp fun a b hab => ?_
  rwa [Apart, caseless_isAlpha a, caseless_isAlpha b, Cleaning.caseless_isDigit a,
    Cleaning.caseless_isDigit b]

/-- Numbers are written apart with hyphens only. -/
theorem isSign_of_mem_numbersApart (h : ∀ c ∈ s, IsSign c) {c : Char} (hc : c ∈ numbersApart s) :
    IsSign c := by
  rcases mem_between hc with hc | rfl
  · rcases mem_between hc with hc | rfl
    · exact h c hc
    · exact isSign_hyphen
  · exact isSign_hyphen

/-- Letters and digits have a hyphen between them, and no two hyphens come to stand next to each other. -/
theorem isChain_numbersApart (h : s.IsChain Lone) :
    (numbersApart s).IsChain fun a b => Lone a b ∧ Apart a b := by
  have halpha : ∀ {c : Char}, c.isAlpha → c ≠ '-' := by
    rintro c hc rfl
    exact absurd hc (by decide)
  have hdigit : ∀ {c : Char}, c.isDigit → c ≠ '-' := by
    rintro c hc rfl
    exact absurd hc (by decide)
  have hinner : (between Char.isAlpha Char.isDigit s).IsChain fun a b =>
      Lone a b ∧ ¬ (a.isAlpha ∧ b.isDigit) := by
    refine isChain_between (h.imp fun a b hab => ?_) (fun a ha => ⟨fun h => halpha ha h.1, by simp⟩)
      fun b hb => ⟨fun h => hdigit hb h.2, by simp⟩
    by_cases hboth : a.isAlpha ∧ b.isDigit
    · exact .inr hboth
    · exact .inl ⟨hab, hboth⟩
  refine isChain_between (hinner.imp fun a b hab => ?_)
    (fun a ha => ⟨fun h => hdigit ha h.1, by simp [Apart]⟩)
    fun b hb => ⟨fun h => halpha hb h.2, by simp [Apart]⟩
  by_cases hboth : a.isDigit ∧ b.isAlpha
  · exact .inr hboth
  · exact .inl ⟨hab.1, hab.2, hboth⟩

/-- Letters and digits that stand apart already stay as they are. -/
theorem numbersApart_eq_self (h : s.IsChain Apart) : numbersApart s = s := by
  rw [numbersApart, between_eq_self (h.imp fun _ _ hab => hab.1),
    between_eq_self (h.imp fun _ _ hab => hab.2)]

end Cleaning

namespace Cleaner

open Cleaning

variable {k : Cleaner} {s : Text}

/-- The normal form of cleaned values: tidy, in small letters in the full mode, and with letters and
digits apart in the enhanced form. -/
structure Normal (k : Cleaner) (value : Text) : Prop extends Tidy value where
  /-- the full mode leaves no capitals -/
  small : k.mode = .fullClean → ∀ c ∈ value, c.isUpper = false
  /-- the enhanced form leaves no letter next to a digit -/
  apart : k.enhanced → value.IsChain Apart

/-! ### What is cleaned is normal -/

/-- A plain value is plain, with its words written apart or not. -/
theorem isPlain_split {value : Text} (h : IsPlain value) : IsPlain (k.split value) := by
  rw [split]
  split
  · exact h.spread
  · exact h

/-- With its gaps taken for hyphens, a plain value has signs of cleaned values only, and needs no
spelling. -/
theorem signs_spelled {value : Text} (h : IsPlain value) :
    k.spelled value = k.gapped value ∧ ∀ c ∈ k.gapped value, IsSign c := by
  have hascii : ∀ c ∈ references (decode (k.split value)), c.toNat < 128 := fun c hc =>
    ascii_of_mem_references (fun d hd => (isPlain_split h).ascii_of_mem_decode hd) hc
  have hsigns : ∀ c ∈ k.gapped value, IsSign c := fun c hc => by
    rcases mem_hyphens hc with ⟨hc, hkept⟩ | rfl
    · exact of_ascii (fun c => isKept c → IsSign c) (by decide +kernel) (hascii c hc) hkept
    · exact isSign_hyphen
  exact ⟨k.dictionary.spell_ascii fun c hc => of_isSign (·.toNat < 128) (by decide) (hsigns c hc),
    hsigns⟩

/-- A text of such signs and lone hyphens is finished to a tidy one. -/
theorem tidy_finish (hsigns : ∀ c ∈ s, IsSign c) (hlone : s.IsChain Lone) :
    Tidy (k.finish s) ∧ (k.enhanced → (k.finish s).IsChain Apart) := by
  rw [finish]
  by_cases henhanced : k.enhanced
  · have hchain := isChain_numbersApart hlone
    have htidy := tidy_trimBoth (fun c hc => isSign_of_mem_numbersApart hsigns hc)
      (hchain.imp fun _ _ h => h.1)
    rw [if_pos henhanced, htidy.filter_eq_self]
    exact ⟨htidy, fun _ => List.IsChain.infix (hchain.imp fun _ _ h => h.2) (Text.trimBoth_infix _ _)⟩
  · have htidy := tidy_trimBoth hsigns hlone
    rw [if_neg henhanced, htidy.filter_eq_self]
    exact ⟨htidy, fun h => absurd h henhanced⟩

/-- **Cleaning a plain value gives a normal one.** -/
theorem normal_apply {value : Text} (h : IsPlain value) (hk : k.mode ≠ .off) :
    k.Normal (k.apply value) := by
  obtain ⟨hspelled, hsigns⟩ := signs_spelled (k := k) h
  obtain ⟨htidy, hapart⟩ := tidy_finish (k := k) hsigns (isChain_hyphens _)
  rw [← hspelled] at htidy hapart
  cases hmode : k.mode with
  | off => exact absurd hmode hk
  | semiClean =>
    rw [apply_semiClean hmode]
    exact ⟨htidy, fun hfull => absurd (hmode.symm.trans hfull) (by decide), hapart⟩
  | fullClean =>
    rw [apply_fullClean hmode]
    refine ⟨htidy.small, fun _ c hc => ?_, fun henhanced => isChain_apart_small (hapart henhanced)⟩
    obtain ⟨d, -, rfl⟩ := List.mem_map.1 hc
    exact Char.isUpper_toLower_eq_false d

/-! ### What is normal stays -/

/-- A tidy value comes through to its spelling as it is, if it has no words to be written apart. -/
theorem spelled_eq_self (h : Tidy s) (hsmall : k.enhanced → ∀ c ∈ s, c.isUpper = false) :
    k.spelled s = s := by
  have hpercent : ∀ c ∈ s, c ≠ '%' := fun c hc => of_isSign (· ≠ '%') (by decide) (h.signs c hc)
  have hplus : ∀ c ∈ s, c ≠ '+' := fun c hc => of_isSign (· ≠ '+') (by decide) (h.signs c hc)
  have hdecode : decode s = s :=
    decode_of_notMem (fun hc => hpercent _ hc rfl) fun hc => hplus _ hc rfl
  have hsplit : k.split s = s := by
    rw [split]
    split
    · exact Camel.spread_of_small (hsmall ‹_›)
    · rfl
  have hreferences : references s = s :=
    Text.rewrite_eq_self _ fun c hc rest => codeForm_cons (hpercent c hc) rest
  have hkept : ∀ c ∈ s, isKept c ∨ c = '-' := fun c hc =>
    of_isSign (fun c => isKept c ∨ c = '-') (by decide +kernel) (h.signs c hc)
  have hhyphens : hyphens s = s := hyphens_eq_self hkept h.lone
  rw [spelled, gapped, hsplit, hdecode, hreferences, hhyphens]
  exact k.dictionary.spell_ascii fun c hc => of_isSign (·.toNat < 128) (by decide) (h.signs c hc)

/-- A tidy value is finished, if it has no letters next to digits to be written apart. -/
theorem finish_eq_self (h : Tidy s) (hapart : k.enhanced → s.IsChain Apart) : k.finish s = s := by
  have hnumbers : (if k.enhanced then numbersApart s else s) = s := by
    split
    · exact numbersApart_eq_self (hapart ‹_›)
    · rfl
  have htrim : Text.trimBoth (· == '-') s = s := by
    refine Text.trimBoth_eq_self (fun c hc => ?_) fun c hc => ?_
    · rw [beq_eq_false_iff_ne]
      rintro rfl
      exact h.first hc
    · rw [beq_eq_false_iff_ne]
      rintro rfl
      exact h.last hc
  rw [finish, hnumbers, htrim, h.filter_eq_self]

/-- **A value in normal form is left as it is**, except where words are written apart and capitals kept. -/
theorem apply_of_normal (h : k.Normal s)
    (hk : k.mode = .fullClean ∨ k.mode = .semiClean ∧ k.enhanced = false) : k.apply s = s := by
  rcases hk with hmode | ⟨hmode, hplain⟩
  · have hsmall := h.small hmode
    have hkept : s.small = s := (List.map_congr_left fun c hc =>
      Char.toLower_eq_of_not_isUpper (by simp [hsmall c hc])).trans (List.map_id s)
    rw [apply_fullClean hmode, spelled_eq_self h.toTidy fun _ => hsmall, finish_eq_self h.toTidy h.apart,
      hkept]
  · have hnone : k.enhanced → ∀ c ∈ s, c.isUpper = false := fun h => absurd h (by simp [hplain])
    rw [apply_semiClean hmode, spelled_eq_self h.toTidy hnone, finish_eq_self h.toTidy h.apart]

/-- **Cleaning once is enough.** A value of ASCII with escapes of ASCII is cleaned to a value in normal
form, and this is not changed by cleaning it again. Only where words are written apart and capitals are
kept, a second time may find words that were not there before. -/
theorem apply_idempotent {value : Text} (h : IsPlain value)
    (hk : k.mode = .fullClean ∨ k.mode = .semiClean ∧ k.enhanced = false) :
    k.apply (k.apply value) = k.apply value ∧ k.Normal (k.apply value) := by
  have hon : k.mode ≠ .off := by
    rcases hk with hmode | ⟨hmode, -⟩ <;> simp [hmode]
  have hnormal : k.Normal (k.apply value) := normal_apply h hon
  exact ⟨apply_of_normal hnormal hk, hnormal⟩

example : (⟨.semiClean, true⟩ : Cleaner).apply "a%42c".toList = "aBc".toList ∧
    (⟨.semiClean, true⟩ : Cleaner).apply "aBc".toList = "a-Bc".toList := by decide +kernel

/-- A value with a word, a number, signs and escapes. -/
theorem apply_idempotent_escaped :
    let k : Cleaner := ⟨.fullClean, true⟩
    let value : Text := "/HTTPServer%20v2+%41--".toList
    IsPlain value ∧ k.apply (k.apply value) = k.apply value ∧ k.Normal (k.apply value) ∧
      k.apply value = "/http-server-v-2-a".toList := by
  intro k value
  have hplain : IsPlain value := by
    refine ⟨by simp [value], fun high low m n hescape hhigh hlow => ?_⟩
    have hfound : high = '2' ∧ low = '0' ∨ high = '4' ∧ low = '1' := by
      simpa [value, List.infix_cons_iff] using hescape
    rcases hfound with ⟨rfl, rfl⟩ | ⟨rfl, rfl⟩
    · obtain rfl : 2 = m := Option.some.inj hhigh
      obtain rfl : 0 = n := Option.some.inj hlow
      decide
    · obtain rfl : 4 = m := Option.some.inj hhigh
      obtain rfl : 1 = n := Option.some.inj hlow
      decide
  obtain ⟨hsame, hnormal⟩ := apply_idempotent (k := k) hplain (.inl rfl)
  exact ⟨hplain, hsame, hnormal, by decide +kernel⟩

end Cleaner

end Detour
