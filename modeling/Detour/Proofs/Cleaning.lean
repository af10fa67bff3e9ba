import Detour.Proofs.Caseless
import Detour.Rewrite.Cleaning
import Mathlib

/-!
# The stages of cleaning

Small facts about the operations that cleaning is made of.

* `Text.trimBoth`: what is left is what stands between the signs that are taken off, from either side.
* Characters are told apart by classes that ignore letter case, such as `Cleaning.caseless_isKept`; signs
  have none, `Cleaning.toLower_eq_iff`.
* `Cleaning.hyphens`: a character that survives, or a run of others, at a time.
* `Cleaning.between`: a character at a time, with the hyphen that comes in behind it.
* `Cleaner.split`, `Cleaner.gapped`, `Cleaner.spelled` and `Cleaner.finish` name the value on its way;
  `Cleaner.clean_eq` puts them together.
-/

namespace Detour

/-! ### Taking signs off both ends -/

namespace Text

variable {p : Char → Bool} {s : Text}

/-- Behind its leading characters of a class a text does not begin with one. -/
theorem head?_dropWhile {c : Char} (h : (s.dropWhile p).head? = some c) : p c = false := by
  have hnot := List.head?_dropWhile_not p s
  rw [h] at hnot
  simpa using hnot

/-- What is left begins and ends with characters that are not of the class. -/
theorem exists_trimBoth (p : Char → Bool) (s : Text) : ∃ front back,
    s = front ++ trimBoth p s ++ back ∧ (∀ c ∈ front, p c) ∧ (∀ c ∈ back, p c) ∧
      (∀ c, (trimBoth p s).head? = some c → p c = false) ∧
      ∀ c, (trimBoth p s).getLast? = some c → p c = false := by
  have hstart : s = s.takeWhile p ++ trimStart p s := List.takeWhile_append_dropWhile.symm
  have hend : trimStart p s = trimBoth p s ++ (trimStart p s).rtakeWhile p :=
    List.rdropWhile_append_rtakeWhile.symm
  refine ⟨s.takeWhile p, (trimStart p s).rtakeWhile p, ?_, fun c hc => List.mem_takeWhile_imp hc,
    fun c hc => List.mem_rtakeWhile_imp hc, fun c hc => ?_, fun c hc => ?_⟩
  · rw [List.append_assoc, ← hend, ← hstart]
  · have hfirst : (trimStart p s).head? = some c := by
      rw [hend, List.head?_append, hc]
      rfl
    exact head?_dropWhile hfirst
  · rw [trimBoth, trimEnd, List.getLast?_reverse] at hc
    exact head?_dropWhile hc

/-- It does not matter from which side a text is read. -/
theorem trimBoth_reverse (p : Char → Bool) (s : Text) :
    trimBoth p s.reverse = (trimBoth p s).reverse := by
  obtain ⟨front, back, hs, hfront, hback, hfirst, hlast⟩ := exists_trimBoth p s
  have hrev : s.reverse = back.reverse ++ (trimBoth p s).reverse ++ front.reverse := by
    conv_lhs => rw [hs]
    rw [List.reverse_append, List.reverse_append, List.append_assoc]
  rw [hrev]
  refine trimBoth_append (fun c hc => hback c (List.mem_reverse.1 hc))
    (fun c hc => hfront c (List.mem_reverse.1 hc)) (fun c hc => hlast c ?_) fun c hc => hfirst c ?_
  · rwa [List.head?_reverse] at hc
  · rwa [List.getLast?_reverse] at hc

/-- A text without such signs at its ends stays as it is. -/
theorem trimBoth_eq_self (hfirst : ∀ c, s.head? = some c → p c = false)
    (hlast : ∀ c, s.getLast? = some c → p c = false) : trimBoth p s = s := by
  have hnone : ∀ c ∈ ([] : Text), p c := fun c hc => absurd hc List.not_mem_nil
  have htrim := trimBoth_append hnone hnone hfirst hlast
  rwa [List.nil_append, List.append_nil] at htrim

/-- From what is left nothing is taken off any more. -/
theorem trimBoth_trimBoth (p : Char → Bool) (s : Text) : trimBoth p (trimBoth p s) = trimBoth p s := by
  obtain ⟨_, _, _, _, _, hfirst, hlast⟩ := exists_trimBoth p s
  exact trimBoth_eq_self hfirst hlast

/-- What is left is a part of the text. -/
theorem trimBoth_infix (p : Char → Bool) (s : Text) : trimBoth p s <:+: s := by
  obtain ⟨front, back, hs, -⟩ := exists_trimBoth p s
  exact ⟨front, back, hs.symm⟩

end Text

namespace Cleaning

variable {p q : Char → Bool} {c : Char} {s : Text}

/-! ### Characters and letter case -/

/-- What holds of the characters of ASCII, one by one, holds of a character of ASCII. -/
theorem of_ascii (P : Char → Prop) (h : ∀ n : Fin 128, P (Char.ofNat n)) (hc : c.toNat < 128) :
    P c := by
  have hall := h ⟨c.toNat, hc⟩
  rwa [Char.ofNat_toNat] at hall

/-- Digits in base sixteen are of ASCII. -/
theorem ascii_of_isHex (h : isHex c) : c.toNat < 128 := by
  have hbound : ∀ {lo hi : Char}, (lo ≤ c && c ≤ hi) = true → hi.toNat < 128 → c.toNat < 128 := by
    intro lo hi hc hhi
    rw [Bool.and_eq_true, decide_eq_true_eq, decide_eq_true_eq] at hc
    exact lt_of_le_of_lt hc.2 hhi
  rw [isHex, hexValue?] at h
  split at h
  · rename_i hc
    exact hbound hc (by decide)
  split at h
  · rename_i hc
    exact hbound hc (by decide)
  split at h
  · rename_i hc
    exact hbound hc (by decide)
  · exact absurd h (by decide)

/-- Digits in base sixteen are in words. -/
theorem isWordSign_of_isHex (h : isHex c) : Camel.isWordSign c :=
  of_ascii (fun c => isHex c → Camel.isWordSign c) (by decide) (ascii_of_isHex h) h

/-- Letters and digits of ASCII are of ASCII. -/
theorem ascii_of_isAlphanum (h : c.isAlphanum) : c.toNat < 128 := by
  have hbound : ∀ {lo hi : UInt32}, lo ≤ c.val ∧ c.val ≤ hi → hi.toNat < 128 → c.toNat < 128 :=
    fun hc hhi => lt_of_le_of_lt hc.2 hhi
  simp only [Char.isAlphanum, Char.isAlpha, Char.isUpper, Char.isLower, Char.isDigit, Bool.or_eq_true,
    Bool.and_eq_true, decide_eq_true_eq] at h
  rcases h with (h | h) | h
  · exact hbound h (by decide)
  · exact hbound h (by decide)
  · exact hbound h (by decide)

/-- A digit has the same value in both cases. -/
theorem caseless_hexValue? : Caseless hexValue? := caseless_of_ascii (by decide)

/-- A digit is one in both cases. -/
theorem caseless_isHex : Caseless isHex := fun c => by rw [isHex, isHex, caseless_hexValue? c]

/-- Letters of ASCII come in both cases. -/
theorem caseless_isAlpha : Caseless Char.isAlpha := caseless_of_ascii (by decide)

/-- Digits of ASCII have no letter case. -/
theorem caseless_isDigit : Caseless Char.isDigit := caseless_of_ascii (by decide)

/-- Letters survive in both cases. -/
theorem caseless_isKept : Caseless isKept := caseless_of_ascii (by decide)

/-- Letters may stand in a cleaned value in both cases. -/
theorem caseless_isAllowed : Caseless isAllowed := caseless_of_ascii (by decide)

/-- Signs have no letter case. -/
theorem toLower_eq_iff {sign : Char} (hsign : sign.isAlpha = false) (c : Char) :
    c.toLower = sign ↔ c = sign := by
  have hkept : c.isAlpha = false → c.toLower = c := fun hc =>
    Char.toLower_eq_of_not_isUpper fun hupper => by simp [Char.isAlpha, hupper] at hc
  refine ⟨fun h => ?_, fun h => ?_⟩
  · have hc : c.isAlpha = false := by rw [← caseless_isAlpha c, h, hsign]
    rw [← h, hkept hc]
  · rw [hkept (h ▸ hsign), h]

/-- So they stand where they stand in the small letters of a text. -/
theorem map_toLower_eq_some_iff {sign : Char} (hsign : sign.isAlpha = false) (place : Option Char) :
    place.map Char.toLower = some sign ↔ place = some sign := by
  cases place with
  | none => simp
  | some c => rw [Option.map_some, Option.some_inj, Option.some_inj, toLower_eq_iff hsign]

/-- A hyphen has no letter case. -/
theorem caseless_hyphen : Caseless (· == '-') := fun c => by
  rw [Bool.eq_iff_iff, beq_iff_eq, beq_iff_eq, toLower_eq_iff (by decide)]

/-! ### Codes -/

/-- A code begins with a percent sign. -/
theorem codeForm_cons (hc : c ≠ '%') (s : Text) : codeForm (c :: s) = none := by
  rw [codeForm.eq_def]
  split
  · exact absurd (List.cons.inj ‹_›).1 hc
  · rfl

/-- A code is made of digits. -/
theorem isHex_of_codeForm {digits : Text} {size : Nat} (h : codeForm s = some (digits, size))
    (hc : c ∈ digits) : isHex c := by
  rw [codeForm.eq_def] at h
  split at h
  · obtain ⟨-, h⟩ := Option.ite_none_right_eq_some.1 h
    obtain ⟨rfl, -⟩ := Prod.mk.inj (Option.some.inj h)
    exact List.mem_takeWhile_imp hc
  · cases h

/-! ### Gaps -/

/-- A character that survives stays. -/
theorem hyphens_kept (hc : isKept c) (s : Text) : hyphens (c :: s) = c :: hyphens s := by
  have hnone : gapForm (c :: s) = none := by
    rw [gapForm, List.takeWhile_cons_of_neg (by simp [hc])]
    rfl
  exact Text.rewrite_cons _ hnone

/-- A run of other characters becomes one hyphen. -/
theorem hyphens_gap (hc : isKept c = false) (s : Text) :
    hyphens (c :: s) = '-' :: hyphens (s.dropWhile fun d => !isKept d) := by
  have hsome : gapForm (c :: s) =
      some ((), (c :: s.takeWhile fun d => !isKept d).length) := by
    rw [gapForm, List.takeWhile_cons_of_pos (by simp [hc])]
    rfl
  have hdrop : s.drop ((c :: s.takeWhile fun d => !isKept d).length - 1) =
      s.dropWhile fun d => !isKept d := by
    rw [List.length_cons, Nat.add_sub_cancel]
    calc s.drop (s.takeWhile fun d => !isKept d).length
        = ((s.takeWhile fun d => !isKept d) ++ s.dropWhile fun d => !isKept d).drop
            (s.takeWhile fun d => !isKept d).length := by rw [List.takeWhile_append_dropWhile]
      _ = s.dropWhile fun d => !isKept d := List.drop_left
  rw [hyphens, Text.rewrite_hit _ hsome, hdrop]
  rfl

/-- A hyphen does not survive. -/
theorem isKept_hyphen : isKept '-' = false := by decide

/-- A text a character or a run at a time. -/
theorem gap_induction {P : Text → Prop} (nil : P [])
    (kept : ∀ c s, isKept c → P s → P (c :: s))
    (gap : ∀ c s, isKept c = false → P (s.dropWhile fun d => !isKept d) → P (c :: s)) (s : Text) :
    P s := by
  induction hlength : s.length using Nat.strongRecOn generalizing s with
  | _ n ih =>
    subst hlength
    cases s with
    | nil => exact nil
    | cons c s =>
      by_cases hc : isKept c
      · exact kept c s hc (ih s.length (Nat.lt_succ_self _) s rfl)
      · have hshort : (s.dropWhile fun d => !isKept d).length < (c :: s).length :=
          Nat.lt_succ_of_le (List.dropWhile_suffix _).length_le
        exact gap c s (by simpa using hc) (ih _ hshort _ rfl)

/-- What becomes of a value are characters of it that survive, and hyphens. -/
theorem mem_hyphens (h : c ∈ hyphens s) : (c ∈ s ∧ isKept c) ∨ c = '-' := by
  induction s using gap_induction with
  | nil => exact absurd h List.not_mem_nil
  | kept d s hd ih =>
    rw [hyphens_kept hd] at h
    rcases List.mem_cons.1 h with rfl | h
    · exact .inl ⟨List.mem_cons_self, hd⟩
    · exact (ih h).imp_left fun hc => ⟨List.mem_cons_of_mem d hc.1, hc.2⟩
  | gap d s hd ih =>
    rw [hyphens_gap hd] at h
    rcases List.mem_cons.1 h with rfl | h
    · exact .inr rfl
    · exact (ih h).imp_left fun hc =>
        ⟨List.mem_cons_of_mem d ((List.dropWhile_suffix _).subset hc.1), hc.2⟩

/-- The first character survives, or else becomes a hyphen. -/
theorem head?_hyphens (s : Text) :
    (hyphens s).head? = s.head?.map fun c => if isKept c then c else '-' := by
  cases s with
  | nil => rfl
  | cons c s =>
    by_cases hc : isKept c
    · simp [hyphens_kept hc, hc]
    · have hgap : isKept c = false := by simpa using hc
      simp [hyphens_gap hgap, hgap]

/-- Two characters that are not both hyphens. -/
def Lone (a b : Char) : Prop := ¬ (a = '-' ∧ b = '-')

/-- **No hyphen stands next to another.** -/
theorem isChain_hyphens (s : Text) : (hyphens s).IsChain Lone := by
  have hkept : ∀ {d : Char}, isKept d → d ≠ '-' := by
    rintro d hd rfl
    exact absurd hd (by decide)
  induction s using gap_induction with
  | nil => exact List.isChain_nil
  | kept c s hc ih =>
    rw [hyphens_kept hc, List.isChain_cons]
    exact ⟨fun d _ h => hkept hc h.1, ih⟩
  | gap c s hc ih =>
    rw [hyphens_gap hc, List.isChain_cons]
    refine ⟨fun d hd h => ?_, ih⟩
    -- behind a run stands a character that survives
    rw [head?_hyphens] at hd
    cases hrest : (s.dropWhile fun d => !isKept d).head? with
    | none =>
      rw [hrest] at hd
      exact absurd hd (by simp)
    | some e =>
      have he : isKept e := by simpa using Text.head?_dropWhile hrest
      rw [hrest] at hd
      simp only [Option.map_some, he, if_true, Option.mem_def, Option.some.injEq] at hd
      exact hkept he (hd.trans h.2)

/-- A value of characters that survive and lone hyphens stays as it is. -/
theorem hyphens_eq_self (hs : ∀ c ∈ s, isKept c ∨ c = '-')
    (h : s.IsChain Lone) : hyphens s = s := by
  induction s with
  | nil => rfl
  | cons c s ih =>
    have hrest : hyphens s = s := ih (fun d hd => hs d (List.mem_cons_of_mem c hd)) h.tail
    rcases hs c List.mem_cons_self with hc | rfl
    · rw [hyphens_kept hc, hrest]
    · have hlone : (s.dropWhile fun d => !isKept d) = s := by
        cases s with
        | nil => rfl
        | cons d s =>
          have hne := (List.isChain_cons_cons.1 h).1
          have hd : isKept d := (hs d (by simp)).resolve_right fun heq => hne ⟨rfl, heq⟩
          rw [List.dropWhile_cons_of_neg (by simp [hd])]
      rw [hyphens_gap isKept_hyphen, hlone, hrest]

/-! ### Hyphens between neighbours -/

/-- The hyphen that comes in between a character and the text behind it. -/
def rung (p q : Char → Bool) (c : Char) (s : Text) : Text :=
  if p c && s.head?.any q then ['-'] else []

/-- Neighbours are written apart from the front. -/
theorem between_cons (p q : Char → Bool) (c : Char) (s : Text) :
    between p q (c :: s) = c :: (rung p q c s ++ between p q s) := by
  cases s with
  | nil => simp [between, rung]
  | cons d s =>
    rw [between, rung]
    by_cases h : p c && q d
    · rw [if_pos h, if_pos (by simpa using h)]
      rfl
    · rw [if_neg h, if_neg (by simpa using h)]
      rfl

/-- Neighbours are written apart from the back as well. -/
theorem between_concat (p q : Char → Bool) (s : Text) (c : Char) :
    between p q (s ++ [c]) =
      between p q s ++ (if s.getLast?.any p && q c then ['-'] else []) ++ [c] := by
  induction s with
  | nil => rfl
  | cons d s ih =>
    rw [List.cons_append, between_cons, between_cons, ih]
    cases s with
    | nil => simp [rung, between]
    | cons e s => simp [rung, List.getLast?_cons_cons]

/-- It does not matter from which side a text is read. -/
theorem reverse_between (p q : Char → Bool) (s : Text) :
    (between p q s).reverse = between q p s.reverse := by
  induction s with
  | nil => rfl
  | cons c s ih =>
    have hrung : (rung p q c s).reverse = if s.head?.any q && p c then ['-'] else [] := by
      rw [rung, Bool.and_comm]
      split <;> rfl
    rw [between_cons, List.reverse_cons, List.reverse_append, ih, hrung, List.reverse_cons,
      between_concat, List.getLast?_reverse]

/-- Only hyphens come in. -/
theorem mem_between (h : c ∈ between p q s) : c ∈ s ∨ c = '-' := by
  induction s with
  | nil => exact absurd h List.not_mem_nil
  | cons d s ih =>
    rw [between_cons, List.mem_cons, List.mem_append] at h
    rcases h with rfl | h | h
    · exact .inl List.mem_cons_self
    · rw [rung] at h
      split at h
      · exact .inr (List.mem_singleton.1 h)
      · exact absurd h List.not_mem_nil
    · exact (ih h).imp_left (List.mem_cons_of_mem d)

/-- No character is lost. -/
theorem mem_between_of_mem (h : c ∈ s) : c ∈ between p q s := by
  induction s with
  | nil => exact absurd h List.not_mem_nil
  | cons d s ih =>
    rw [between_cons, List.mem_cons, List.mem_append]
    exact (List.mem_cons.1 h).imp_right fun hc => .inr (ih hc)

/-- The first character stays in front. -/
theorem head?_between (p q : Char → Bool) (s : Text) : (between p q s).head? = s.head? := by
  cases s with
  | nil => rfl
  | cons c s => rw [between_cons]; rfl

/-- Neighbours that are to be written apart get a hyphen between them, and what else neighbours have in
common is kept if it also holds towards hyphens. -/
theorem isChain_between {R : Char → Char → Prop}
    (h : s.IsChain fun a b => R a b ∨ (p a ∧ q b)) (hp : ∀ a, p a → R a '-') (hq : ∀ b, q b → R '-' b) :
    (between p q s).IsChain R := by
  induction s with
  | nil => exact List.isChain_nil
  | cons c s ih =>
    rw [between_cons, rung]
    split
    · rename_i hboth
      rw [Bool.and_eq_true] at hboth
      rw [List.cons_append, List.nil_append, List.isChain_cons_cons, List.isChain_cons]
      refine ⟨hp c hboth.1, fun d hd => ?_, ih h.tail⟩
      rw [head?_between, Option.mem_def] at hd
      rw [hd] at hboth
      exact hq d hboth.2
    · rename_i hnone
      rw [List.nil_append, List.isChain_cons]
      refine ⟨fun d hd => ?_, ih h.tail⟩
      rw [head?_between, Option.mem_def] at hd
      rw [hd] at hnone
      refine ((List.isChain_cons.1 h).1 d hd).resolve_right fun hboth => hnone ?_
      simpa using hboth

/-- A text without neighbours to be written apart stays as it is. -/
theorem between_eq_self (h : s.IsChain fun a b => ¬ (p a ∧ q b)) : between p q s = s := by
  induction s with
  | nil => rfl
  | cons c s ih =>
    have hrung : rung p q c s = [] := by
      cases s with
      | nil => simp [rung]
      | cons d s =>
        have hapart := (List.isChain_cons_cons.1 h).1
        simpa [rung] using hapart
    rw [between_cons, hrung, List.nil_append, ih h.tail]

end Cleaning

/-! ### A value on its way -/

namespace Cleaner

open Cleaning

variable (k : Cleaner)

/-- The text that is decoded: the value, perhaps with its words written apart. -/
def split (value : Text) : Text := if k.enhanced then Camel.spread value else value

/-- A value with hyphens for its gaps, before it is spelled. -/
def gapped (value : Text) : Text := hyphens (references (decode (k.split value)))

/-- A value in characters of ASCII. -/
def spelled (value : Text) : Text := k.dictionary.spell (k.gapped value)

/-- What is left of a spelled text: no hyphens at its ends, and no characters that may not stand in a
cleaned value. -/
def finish (s : Text) : Text :=
  (Text.trimBoth (· == '-') (if k.enhanced then numbersApart s else s)).filter isAllowed

/-- A value is cleaned in these steps. -/
theorem clean_eq (lower : Bool) (value : Text) : k.clean lower value =
    if lower then (k.finish (k.spelled value)).map Char.toLower else k.finish (k.spelled value) := rfl

variable {k} {value : Text}

/-- The mode that keeps letter case gives the finished text. -/
theorem apply_semiClean (hk : k.mode = .semiClean) : k.apply value = k.finish (k.spelled value) := by
  rw [apply, hk]
  rfl

/-- The full mode gives its small letters. -/
theorem apply_fullClean (hk : k.mode = .fullClean) :
    k.apply value = Text.small (k.finish (k.spelled value)) := by
  rw [apply, hk]
  rfl

end Cleaner

end Detour
