import Detour.Proofs.Casing
import Detour.Proofs.Decoding
import Detour.Proofs.Fringe

/-!
# Values with escaped code points

The code point of a letter can be written with `%u` and four digits. Such an escape is written as a character
reference, which nothing reads: its signs are a gap, like any others.

* `Cleaning.references_decode_code`: what a value with an escape is before its gaps are taken.
* `Cleaning.hyphens_run`: a gap is as good as a hyphen.
* `Cleaner.firm_clean`: hyphens apart, a value is cleaned character by character, `Cleaning.firm` being what
  becomes of one.
* `Cleaner.clean_code` takes from these what an escape is cleaned to, and that it is not what a letter is
  cleaned to, unless the dictionary spells the letter with the signs of the escape.
-/

namespace Detour

namespace Cleaning

variable {c : Char} {s digits pre post : Text} (dictionary : Dictionary)

/-! ### Escapes of code points -/

/-- A text without escapes denotes its own bytes, in front of any other as well. -/
theorem bytes_append (hpercent : '%' ∉ s) (hplus : '+' ∉ s) (t : Text) :
    bytes (s ++ t) = Utf8.encode s ++ bytes t := by
  induction s with
  | nil => rfl
  | cons c s ih =>
    rw [List.mem_cons, not_or] at hpercent hplus
    rw [List.cons_append, bytes_cons (Ne.symm hpercent.1) (Ne.symm hplus.1), ih hpercent.2 hplus.2,
      ← List.append_assoc]
    rfl

/-- Percent and plus signs are no digits. -/
theorem notMem_digits (hdigits : ∀ d ∈ digits, isHex d) : '%' ∉ digits ∧ '+' ∉ digits :=
  ⟨fun h => absurd (hdigits _ h) (by decide), fun h => absurd (hdigits _ h) (by decide)⟩

/-- The escape of a code point is no escape of a byte, as `u` is no digit. -/
theorem escapeForm_code (s : Text) : escapeForm ('%' :: 'u' :: s) = none := by
  cases s <;> rfl

/-- So it stays when a value is decoded. -/
theorem decode_code (hdigits : ∀ d ∈ digits, isHex d) (hpre : '%' ∉ pre ∧ '+' ∉ pre)
    (hpost : '%' ∉ post ∧ '+' ∉ post) :
    decode (pre ++ '%' :: 'u' :: digits ++ post) = pre ++ '%' :: 'u' :: digits ++ post := by
  have hdigit := notMem_digits hdigits
  have htail : '%' ∉ 'u' :: (digits ++ post) ∧ '+' ∉ 'u' :: (digits ++ post) := by
    simp [hdigit, hpost]
  have hplain : bytes ('u' :: (digits ++ post)) = Utf8.encode ('u' :: (digits ++ post)) :=
    bytes_encodes (encodes_self _) htail.1 htail.2
  rw [List.append_assoc, List.cons_append, List.cons_append, decode_eq, bytes_append hpre.1 hpre.2,
    bytes_plain (escapeForm_code _), hplain]
  have hbytes : Utf8.encode pre ++ (Utf8.encodeChar (unplus '%') ++
      Utf8.encode ('u' :: (digits ++ post))) = Utf8.encode (pre ++ '%' :: 'u' :: (digits ++ post)) := by
    rw [Utf8.encode, Utf8.encode, Utf8.encode, List.flatMap_append, List.flatMap_cons]
    rfl
  rw [hbytes, Utf8.decodeLossy_encode]

/-- Four digits behind `%u` are the digits of a code. -/
theorem codeForm_digits (hlength : digits.length = 4) (hdigits : ∀ d ∈ digits, isHex d) (s : Text) :
    codeForm ('%' :: 'u' :: digits ++ s) = some (digits, ('%' :: 'u' :: digits).length) := by
  have htake : ((digits ++ s).take 4).takeWhile isHex = digits := by
    rw [← hlength, List.take_left, List.takeWhile_eq_self_iff.2 hdigits]
  simp only [List.cons_append, codeForm, htake]
  simp [hlength]

/-- In a text without percent signs there is nothing to refer to. -/
theorem references_of_notMem (hs : '%' ∉ s) : references s = s :=
  Text.rewrite_eq_self _ fun _ hc rest => codeForm_cons (fun h => hs (h ▸ hc)) rest

/-- In front of another it stays as well. -/
theorem references_append (hs : '%' ∉ s) (t : Text) : references (s ++ t) = s ++ references t :=
  Text.rewrite_plain _ t fun _ hc rest => codeForm_cons (fun h => hs (h ▸ hc)) rest

/-- **An escape becomes a character reference**, and all else stays. -/
theorem references_decode_code (hlength : digits.length = 4) (hdigits : ∀ d ∈ digits, isHex d)
    (hpre : '%' ∉ pre ∧ '+' ∉ pre) (hpost : '%' ∉ post ∧ '+' ∉ post) :
    references (decode (pre ++ '%' :: 'u' :: digits ++ post)) =
      pre ++ ("&#x".toList ++ digits ++ [';']) ++ post := by
  rw [decode_code hdigits hpre hpost, List.append_assoc, references_append hpre.1, references,
    Text.rewrite_append _ (List.cons_ne_nil _ _) (codeForm_digits hlength hdigits post), ← references,
    references_of_notMem hpost.1]
  simp only [List.append_assoc]

/-- Nothing becomes of a text without percent and plus signs. -/
theorem references_decode_of_notMem (hs : '%' ∉ s ∧ '+' ∉ s) : references (decode s) = s := by
  rw [decode_of_notMem hs.1 hs.2, references_of_notMem hs.1]

/-! ### Gaps -/

/-- **A gap is as good as a hyphen.** -/
theorem hyphens_run {run : Text} (hrun : run ≠ []) (hgap : ∀ c ∈ run, isKept c = false) (s t : Text) :
    hyphens (s ++ run ++ t) = hyphens (s ++ '-' :: t) := by
  have hrest : (run ++ t).dropWhile (fun d => !isKept d) = t.dropWhile fun d => !isKept d :=
    List.dropWhile_append_of_pos fun c hc => by simp [hgap c hc]
  induction s using gap_induction with
  | nil =>
    obtain ⟨c, run, rfl⟩ := List.exists_cons_of_ne_nil hrun
    have hc := hgap c List.mem_cons_self
    rw [List.cons_append, List.dropWhile_cons_of_pos (by simp [hc])] at hrest
    rw [List.nil_append, List.nil_append, List.cons_append, hyphens_gap hc, hyphens_gap isKept_hyphen, hrest]
  | kept c s hc ih =>
    rw [List.cons_append, List.cons_append, List.cons_append, hyphens_kept hc, hyphens_kept hc, ih]
  | gap c s hc ih =>
    rw [List.cons_append, List.cons_append, List.cons_append, hyphens_gap hc, hyphens_gap hc]
    -- the gap that `c` begins may reach into the run
    by_cases hempty : s.dropWhile (fun d => !isKept d) = []
    · have hs := List.dropWhile_eq_nil_iff.1 hempty
      rw [List.append_assoc, List.dropWhile_append_of_pos hs, List.dropWhile_append_of_pos hs, hrest,
        List.dropWhile_cons_of_pos (by decide)]
    · have hreach : ∀ u, (s ++ u).dropWhile (fun d => !isKept d) =
          s.dropWhile (fun d => !isKept d) ++ u := fun u => by
        rw [List.dropWhile_append]
        simp [hempty]
      rw [List.append_assoc, hreach, hreach, ← List.append_assoc, ih]

/-- The signs of a character reference are gaps. -/
theorem hyphens_reference (digits pre post : Text) :
    hyphens (pre ++ ("&#x".toList ++ digits ++ [';']) ++ post) =
      hyphens (pre ++ ("-x".toList ++ digits ++ ['-']) ++ post) :=
  calc hyphens (pre ++ ("&#x".toList ++ digits ++ [';']) ++ post)
      = hyphens (pre ++ ['&', '#'] ++ ('x' :: digits ++ ';' :: post)) := by simp
    _ = hyphens (pre ++ '-' :: ('x' :: digits ++ ';' :: post)) :=
        hyphens_run (List.cons_ne_nil _ _)
          (List.forall_mem_cons.2 ⟨by decide, List.forall_mem_singleton.2 (by decide)⟩) _ _
    _ = hyphens (pre ++ '-' :: 'x' :: digits ++ [';'] ++ post) := by simp
    _ = hyphens (pre ++ '-' :: 'x' :: digits ++ '-' :: post) :=
        hyphens_run (List.cons_ne_nil _ _) (List.forall_mem_singleton.2 (by decide)) _ _
    _ = hyphens (pre ++ ("-x".toList ++ digits ++ ['-']) ++ post) := by simp

/-! ### What becomes of a character -/

/-- Whether a character of a spelling stands in a cleaned value wherever it stands itself, as hyphens do
not. -/
def isFirm (c : Char) : Bool := isAllowed c && c != '-'

/-- What becomes of a character, hyphens apart. -/
def firm (c : Char) : Text := if isKept c then (dictionary.spelling c).filter isFirm else []

/-- A letter is firm in both cases. -/
theorem caseless_isFirm : Caseless isFirm := caseless_of_ascii (by decide)

/-- A text is spelled character by character. -/
theorem filter_spell (s : Text) :
    (dictionary.spell s).filter isFirm = s.flatMap fun c => (dictionary.spelling c).filter isFirm := by
  induction s with
  | nil => rfl
  | cons c s ih =>
    rw [Dictionary.spell, List.filter_append, List.flatMap_cons, ih]
    congr 1
    -- what is dropped is a space
    rcases fit_cases (dictionary.spelling c) (s.head?.map dictionary.spelling) with
      hfit | ⟨init, hinit, hfit⟩
    · rw [hfit]
    · rw [hfit, hinit, List.filter_append]
      exact (List.append_nil _).symm

/-- Nothing becomes of a gap. -/
theorem flatMap_firm_hyphens (s : Text) :
    (hyphens s).flatMap (fun c => (dictionary.spelling c).filter isFirm) = s.flatMap (firm dictionary) := by
  induction s using gap_induction with
  | nil => rfl
  | kept c s hc ih => rw [hyphens_kept hc, List.flatMap_cons, List.flatMap_cons, ih, firm, if_pos hc]
  | gap c s hc ih =>
    have hrun : (s.takeWhile fun d => !isKept d).flatMap (firm dictionary) = [] :=
      List.flatMap_eq_nil_iff.2 fun d hd => by
        have hd : isKept d = false := by simpa using List.mem_takeWhile_imp hd
        rw [firm, hd]
        rfl
    calc (hyphens (c :: s)).flatMap (fun c => (dictionary.spelling c).filter isFirm)
        = (s.dropWhile fun d => !isKept d).flatMap (firm dictionary) := by
          rw [hyphens_gap hc, List.flatMap_cons, ih]
          rfl
      _ = (s.takeWhile fun d => !isKept d).flatMap (firm dictionary) ++
            (s.dropWhile fun d => !isKept d).flatMap (firm dictionary) := by
          rw [hrun, List.nil_append]
      _ = (c :: s).flatMap (firm dictionary) := by
          rw [← List.flatMap_append, List.takeWhile_append_dropWhile, List.flatMap_cons, firm, hc]
          rfl

/-- Nothing but hyphens comes in between neighbours. -/
theorem filter_between (p q : Char → Bool) (s : Text) : (between p q s).filter isFirm = s.filter isFirm := by
  induction s with
  | nil => rfl
  | cons c s ih =>
    have hrung : (rung p q c s).filter isFirm = [] := by
      rw [rung]
      split <;> rfl
    rw [between_cons, List.filter_cons, List.filter_cons, List.filter_append, hrung, ih, List.nil_append]

/-- Only hyphens are taken off both ends. -/
theorem filter_trimBoth (s : Text) : (Text.trimBoth (· == '-') s).filter isFirm = s.filter isFirm := by
  obtain ⟨front, back, hs, hfront, hback, -⟩ := Text.exists_trimBoth (· == '-') s
  have hnone (t : Text) (ht : ∀ c ∈ t, c == '-') : t.filter isFirm = [] :=
    List.filter_eq_nil_iff.2 fun c hc => by
      rw [eq_of_beq (ht c hc)]
      decide
  conv_rhs => rw [hs]
  rw [List.filter_append, List.filter_append, hnone front hfront, hnone back hback, List.nil_append,
    List.append_nil]

/-- What is firm is allowed. -/
theorem filter_allowed (s : Text) : (s.filter isAllowed).filter isFirm = s.filter isFirm := by
  rw [List.filter_filter]
  exact List.filter_congr fun c _ => by
    rw [isFirm]
    cases isAllowed c <;> simp

/-- Of a character of ASCII the character itself is left, or nothing. -/
theorem firm_ascii (h : c.toNat < 128) : firm dictionary c = if isKept c then [c].filter isFirm else [] := by
  rw [firm, dictionary.spelling_ascii h]

/-- The letter and the digits are what becomes of a character reference. -/
theorem flatMap_firm_reference (hdigits : ∀ d ∈ digits, isHex d) :
    ("&#x".toList ++ digits ++ [';']).flatMap (firm dictionary) = 'x' :: digits := by
  have hdigit (d : Char) (hd : isHex d) : firm dictionary d = [d] := by
    rw [firm_ascii dictionary (ascii_of_isHex hd)]
    exact of_ascii (fun d => isHex d → (if isKept d then [d].filter isFirm else []) = [d]) (by decide +kernel)
      (ascii_of_isHex hd) hd
  have hfront : "&#x".toList.flatMap (firm dictionary) = ['x'] := rfl
  have hback : [';'].flatMap (firm dictionary) = [] := rfl
  rw [List.flatMap_append, List.flatMap_append, hfront, hback, List.append_nil,
    List.flatMap_congr fun d hd => hdigit d (hdigits d hd), List.flatMap_singleton']
  rfl

end Cleaning

namespace Cleaner

open Cleaning

variable (k : Cleaner)

/-- Firm characters stay when a text is finished. -/
theorem filter_finish (s : Text) : (k.finish s).filter isFirm = s.filter isFirm := by
  rw [finish, filter_allowed, filter_trimBoth]
  split
  · rw [numbersApart, filter_between, filter_between]
  · rfl

/-- **Hyphens apart, a value is cleaned character by character**, in letters of either case. -/
theorem firm_clean (lower : Bool) (value : Text) : Text.small ((k.clean lower value).filter isFirm) =
    Text.small ((references (decode (k.split value))).flatMap (firm k.dictionary)) := by
  have hfinish : (k.finish (k.spelled value)).filter isFirm =
      (references (decode (k.split value))).flatMap (firm k.dictionary) := by
    rw [filter_finish, spelled, filter_spell, gapped, flatMap_firm_hyphens]
  have hlower (s : Text) : Text.small (s.small.filter isFirm) = Text.small (s.filter isFirm) := by
    rw [Text.filter_small caseless_isFirm, Text.small, Text.small, List.map_map]
    exact congrArg (List.map · _) (funext Char.toLower_toLower_eq_toLower)
  rw [clean_eq, ← hfinish]
  split
  · exact hlower _
  · rfl

variable {k}

/-- So values that are cleaned alike consist of characters that become the same. -/
theorem firm_of_clean_eq {lower : Bool} {v w : Text} (h : k.clean lower v = k.clean lower w) :
    Text.small ((references (decode (k.split v))).flatMap (firm k.dictionary)) =
      Text.small ((references (decode (k.split w))).flatMap (firm k.dictionary)) := by
  rw [← firm_clean k lower v, ← firm_clean k lower w, h]

/-- Without words written apart it is the value itself that is decoded. -/
theorem split_of_not_enhanced (hk : k.enhanced = false) (value : Text) : k.split value = value := by
  rw [split, hk]
  rfl

/-- **An escaped code point is cleaned like a word between hyphens**, the x and the digits of the escape,
and not like a letter. Whatever the digits and whatever letter is put in the place of the escape, the one
with this code point as well, another value comes out, as long as the dictionary does not spell this
letter with just the x and the digits. -/
theorem clean_code (hk : k.enhanced = false) {digits pre post : Text}
    (hlength : digits.length = 4) (hdigits : ∀ d ∈ digits, isHex d) (hpre : '%' ∉ pre ∧ '+' ∉ pre)
    (hpost : '%' ∉ post ∧ '+' ∉ post) (lower : Bool) :
    k.clean lower (pre ++ '%' :: 'u' :: digits ++ post) =
        k.clean lower (pre ++ ("-x".toList ++ digits ++ ['-']) ++ post) ∧
      ∀ c, isLetter c → Text.small ((k.dictionary.spelling c).filter isFirm) ≠ Text.small ('x' :: digits) →
        k.clean lower (pre ++ '%' :: 'u' :: digits ++ post) ≠ k.clean lower (pre ++ c :: post) := by
  have hsplit := split_of_not_enhanced hk
  have hcode := references_decode_code hlength hdigits hpre hpost
  refine ⟨?_, fun c hc hspelled heq => hspelled ?_⟩
  · have hword : references (decode (pre ++ ("-x".toList ++ digits ++ ['-']) ++ post)) =
        pre ++ ("-x".toList ++ digits ++ ['-']) ++ post :=
      references_decode_of_notMem (by simp [hpre, hpost, notMem_digits hdigits])
    rw [clean_eq, clean_eq, spelled, spelled, gapped, gapped, hsplit, hsplit, hcode, hword,
      hyphens_reference]
  · have hplain : '%' ∉ pre ++ c :: post ∧ '+' ∉ pre ++ c :: post := by
      have hpercent : '%' ≠ c := fun h => absurd (h ▸ hc) (by decide)
      have hplus : '+' ≠ c := fun h => absurd (h ▸ hc) (by decide)
      simp [hpre, hpost, hpercent, hplus]
    have hfirm := firm_of_clean_eq heq
    rw [hsplit, hsplit, hcode, references_decode_of_notMem hplain, List.flatMap_append,
      List.flatMap_append, flatMap_firm_reference k.dictionary hdigits, List.flatMap_append,
      List.flatMap_cons, ← List.append_assoc,
      Text.small_append, Text.small_append, Text.small_append, Text.small_append] at hfirm
    have hkept : isKept c := by rw [isKept, hc]; rfl
    have hword := List.append_cancel_left (List.append_cancel_right hfirm)
    rw [firm, if_pos hkept] at hword
    exact hword.symm

/-- A value with an escaped letter. -/
theorem clean_code_marked :
    let k : Cleaner := ⟨.semiClean, false⟩
    let digits : Text := "00E9".toList
    k.enhanced = false ∧ digits.length = 4 ∧ (∀ d ∈ digits, isHex d) ∧ isLetter '\u00e9' ∧
      Text.small ((k.dictionary.spelling '\u00e9').filter isFirm) ≠ Text.small ('x' :: digits) ∧
      k.clean false ("Caf".toList ++ '%' :: 'u' :: digits ++ " noir".toList) =
        k.clean false ("Caf".toList ++ ("-x".toList ++ digits ++ ['-']) ++ " noir".toList) ∧
      k.clean false ("Caf".toList ++ '%' :: 'u' :: digits ++ " noir".toList) ≠
        k.clean false ("Caf".toList ++ '\u00e9' :: " noir".toList) := by
  intro k digits
  have hdigits : ∀ d ∈ digits, isHex d := List.all_eq_true.1 (by decide)
  have hletter : isLetter '\u00e9' := by decide
  have hspelled : Text.small ((k.dictionary.spelling '\u00e9').filter isFirm) ≠
      Text.small ('x' :: digits) := by
    decide +kernel
  have hcode := @clean_code k rfl digits "Caf".toList " noir".toList rfl hdigits (by decide) (by decide) false
  exact ⟨rfl, rfl, hdigits, hletter, hspelled, hcode.1, hcode.2 _ hletter hspelled⟩

/-- The x and the digits are left of an escape, where an e is left of the letter that it stands for. -/
theorem clean_code_acute :
    let k : Cleaner := ⟨.fullClean, false⟩
    k.clean true "caf%u00e9".toList = "caf-x00e9".toList ∧
      k.clean true ['c', 'a', 'f', '\u00e9'] = "cafe".toList ∧ '\u00e9'.toNat = 0x00e9 := by
  decide +kernel

end Cleaner

end Detour
