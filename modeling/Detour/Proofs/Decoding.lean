import Detour.Proofs.Encoding
import Detour.Rewrite.Cleaning
import Detour.Rewrite.Letters
import Mathlib.Data.List.Forall2

/-!
# Values with percent escapes

A captured value is decoded before it is cleaned: plus signs are read as spaces, and percent escapes as
bytes.

* `Cleaning.bytes`: the bytes that a value denotes. A walk over the value for `escapeForm` gives them, one
  byte for an escape (`Cleaning.bytes_hit`) and its own bytes for any other sign (`Cleaning.bytes_plain`).
* `Cleaning.Encodes`: a text written with some of its characters escaped. There are many such texts, and
  `Cleaning.bytes_encodes` says that all of them denote the same bytes, those of the text itself.
* `Cleaner.clean_encodes`: so all of them are cleaned alike.
* `Utf8.decodeLossy_ascii`: bytes of ASCII are read one by one.
-/

namespace Detour

/-! ### Bytes of texts with escapes -/

/-- An escape at the front of a text, with the byte that it denotes. -/
def escapeForm : Form UInt8
  | '%' :: high :: low :: _ =>
    match hexValue? high, hexValue? low with
    | some h, some l => some ((16 * h + l).toUInt8, 3)
    | _, _ => none
  | _ => none

/-- A percent sign before two digits begins an escape. -/
theorem escapeForm_digits {high low : Char} {h l : Nat} (hhigh : hexValue? high = some h)
    (hlow : hexValue? low = some l) (s : Text) :
    escapeForm ('%' :: high :: low :: s) = some ((16 * h + l).toUInt8, 3) := by
  simp only [escapeForm, hhigh, hlow]

/-- Another sign begins none. -/
theorem escapeForm_cons {c : Char} (hc : c ≠ '%') (s : Text) : escapeForm (c :: s) = none := by
  rw [escapeForm.eq_def]
  split
  · exact absurd (List.cons.inj ‹_›).1 hc
  · rfl

/-- An escape is a percent sign and two digits. -/
theorem escapeForm_eq_some {s : Text} {b : UInt8} {size : Nat} (h : escapeForm s = some (b, size)) :
    ∃ high low rest m n, s = '%' :: high :: low :: rest ∧ hexValue? high = some m ∧
      hexValue? low = some n ∧ b = (16 * m + n).toUInt8 ∧ size = 3 := by
  rw [escapeForm.eq_def] at h
  split at h
  · split at h
    · obtain ⟨rfl, rfl⟩ := Prod.mk.inj (Option.some.inj h)
      exact ⟨_, _, _, _, _, rfl, ‹_›, ‹_›, rfl, rfl⟩
    · exact absurd h (by simp)
  · exact absurd h (by simp)

/-- Escapes stand where they stood when other signs are exchanged, and digits for ones of the same
value. -/
theorem escapeForm_map {f : Char → Char} (hpercent : ∀ c, f c = '%' ↔ c = '%')
    (hdigit : ∀ c, hexValue? (f c) = hexValue? c) (s : Text) : escapeForm (s.map f) = escapeForm s := by
  cases s with
  | nil => rfl
  | cons c s =>
    by_cases hc : c = '%'
    · subst hc
      have hkept : f '%' = '%' := (hpercent '%').2 rfl
      match s with
      | [] => simp [hkept, escapeForm]
      | [_] => simp [hkept, escapeForm]
      | high :: low :: s => simp only [List.map_cons, hkept, escapeForm, hdigit]
    · rw [List.map_cons, escapeForm_cons ((hpercent c).not.2 hc), escapeForm_cons hc]

/-- An escape is the byte that it denotes. -/
theorem percentBytes_hit {c : Char} {s : Text} {b : UInt8} {size : Nat}
    (h : escapeForm (c :: s) = some (b, size)) :
    percentBytes (c :: s) = b :: percentBytes (s.drop (size - 1)) := by
  obtain ⟨high, low, rest, m, n, hs, hhigh, hlow, rfl, rfl⟩ := escapeForm_eq_some h
  obtain ⟨rfl, rfl⟩ := List.cons.inj hs
  simp only [percentBytes, hhigh, hlow]
  rfl

/-- Any other sign is its own bytes. -/
theorem percentBytes_plain {c : Char} {s : Text} (h : escapeForm (c :: s) = none) :
    percentBytes (c :: s) = Utf8.encodeChar c ++ percentBytes s := by
  rw [percentBytes.eq_def]
  split
  · contradiction
  · obtain ⟨rfl, rfl⟩ := List.cons.inj ‹_›
    split
    · rw [escapeForm_digits ‹_› ‹_›] at h
      exact absurd h (by simp)
    · rfl
  · obtain ⟨rfl, rfl⟩ := List.cons.inj ‹_›
    rfl

/-- Nothing has to be replaced when the bytes of a text are read. -/
theorem Utf8.decodeLossy_encode (s : Text) : Utf8.decodeLossy (Utf8.encode s) = s := by
  have hchars := Utf8.charsFrom_encode s []
  have hnil : Utf8.charsFrom 0 [] = [] := rfl
  rw [List.append_nil, hnil, List.append_nil] at hchars
  rw [Utf8.decodeLossy, hchars, List.map_map]
  exact List.map_id s

/-- Bytes of ASCII are read one by one. -/
theorem Utf8.decodeLossy_ascii {bytes : Bytes} (h : ∀ b ∈ bytes, b < 0x80) :
    Utf8.decodeLossy bytes = bytes.map fun b => Char.ofNat b.toNat := by
  have hchars : Utf8.charsFrom 0 bytes = bytes.map fun b => some (Char.ofNat b.toNat) := by
    induction bytes with
    | nil => rfl
    | cons b bytes ih =>
      have hfront : Utf8.front b bytes = (some (Char.ofNat b.toNat), 1) := by
        rw [Utf8.front.eq_def, if_pos (h b List.mem_cons_self)]
      rw [Utf8.charsFrom, hfront, List.map_cons]
      exact congrArg _ (ih fun d hd => h d (List.mem_cons_of_mem b hd))
  rw [Utf8.decodeLossy, hchars, List.map_map]
  rfl

namespace Cleaning

/-! ### Bytes of a value -/

/-- A plus sign is read as a space. -/
def unplus (c : Char) : Char := if c = '+' then ' ' else c

/-- The bytes that a value denotes. -/
def bytes (s : Text) : Bytes := percentBytes (s.map unplus)

/-- A value is decoded by reading its bytes. -/
theorem decode_eq (s : Text) : decode s = Utf8.decodeLossy (bytes s) := rfl

/-- Neither a plus sign nor a space is a digit. -/
theorem hexValue?_unplus (c : Char) : hexValue? (unplus c) = hexValue? c := by
  rw [unplus]
  split
  · rename_i hc
    subst hc
    rfl
  · rfl

/-- Escapes stand where they stood when plus signs are read as spaces. -/
theorem escapeForm_unplus (s : Text) : escapeForm (s.map unplus) = escapeForm s := by
  refine escapeForm_map (fun c => ?_) hexValue?_unplus s
  rw [unplus]
  split
  · rename_i hc
    subst hc
    decide
  · rfl

/-- An escape is the byte that it denotes. -/
theorem bytes_hit {c : Char} {s : Text} {b : UInt8} {size : Nat}
    (h : escapeForm (c :: s) = some (b, size)) : bytes (c :: s) = b :: bytes (s.drop (size - 1)) := by
  rw [← escapeForm_unplus] at h
  rw [bytes, bytes, List.map_drop]
  exact percentBytes_hit h

/-- Any other sign is its own bytes, a plus sign that of a space. -/
theorem bytes_plain {c : Char} {s : Text} (h : escapeForm (c :: s) = none) :
    bytes (c :: s) = Utf8.encodeChar (unplus c) ++ bytes s := by
  rw [← escapeForm_unplus] at h
  exact percentBytes_plain h

/-- An escape is the byte that its digits denote. -/
theorem bytes_escape {high low : Char} {h l : Nat} (hhigh : hexValue? high = some h)
    (hlow : hexValue? low = some l) (s : Text) :
    bytes ('%' :: high :: low :: s) = (16 * h + l).toUInt8 :: bytes s :=
  bytes_hit (escapeForm_digits hhigh hlow s)

/-- A sign that is neither a percent nor a plus sign is its own bytes. -/
theorem bytes_cons {c : Char} (hpercent : c ≠ '%') (hplus : c ≠ '+') (s : Text) :
    bytes (c :: s) = Utf8.encodeChar c ++ bytes s := by
  rw [bytes_plain (escapeForm_cons hpercent s), unplus, if_neg hplus]

/-! ### Ways to write a text -/

/-- A percent escape of a byte, with digits in either letter case. -/
def IsEscapeOf (b : UInt8) (e : Text) : Prop :=
  ∃ high low, e = ['%', high, low] ∧ hexValue? high = some (b.toNat / 16) ∧
    hexValue? low = some (b.toNat % 16)

/-- The ways to write a character in a value. -/
inductive Writes : Char → Text → Prop where
  /-- as it is -/
  | plain (c : Char) : Writes c [c]
  /-- a space as a plus sign -/
  | plus : Writes ' ' ['+']
  /-- with an escape for each of its bytes -/
  | escaped {c : Char} {es : List Text} (h : List.Forall₂ IsEscapeOf (Utf8.encodeChar c) es) :
    Writes c es.flatten

/-- A text and a value that writes it, each character in one of the ways. -/
inductive Encodes : Text → Text → Prop where
  /-- nothing is written as nothing -/
  | nil : Encodes [] []
  /-- one character more -/
  | cons {c : Char} {w s e : Text} (hc : Writes c w) (h : Encodes s e) : Encodes (c :: s) (w ++ e)

/-- Escapes are the bytes that they are escapes of. -/
theorem bytes_escapes {bs : Bytes} {es : List Text} (h : List.Forall₂ IsEscapeOf bs es) (s : Text) :
    bytes (es.flatten ++ s) = bs ++ bytes s := by
  induction h with
  | nil => rfl
  | @cons b e bs es hb _ ih =>
    obtain ⟨high, low, rfl, hhigh, hlow⟩ := hb
    have hbyte : (16 * (b.toNat / 16) + b.toNat % 16).toUInt8 = b := by
      rw [Nat.div_add_mod]
      exact UInt8.ofNat_toNat
    rw [List.flatten_cons, List.append_assoc, List.cons_append, List.cons_append, List.cons_append,
      List.nil_append, bytes_escape hhigh hlow, hbyte, ih, List.cons_append]

/-- However a character is written, it denotes its own bytes. -/
theorem bytes_writes {c : Char} {w : Text} (h : Writes c w) (hpercent : c ≠ '%') (hplus : c ≠ '+')
    (s : Text) : bytes (w ++ s) = Utf8.encodeChar c ++ bytes s := by
  cases h with
  | plain => exact bytes_cons hpercent hplus s
  | plus => exact bytes_plain (escapeForm_cons (by decide) s)
  | escaped h => exact bytes_escapes h s

/-- **However a text is written, it denotes its own bytes.** -/
theorem bytes_encodes {s e : Text} (h : Encodes s e) (hpercent : '%' ∉ s) (hplus : '+' ∉ s) :
    bytes e = Utf8.encode s := by
  induction h with
  | nil => rfl
  | @cons c w s e hc _ ih =>
    rw [List.mem_cons, not_or] at hpercent hplus
    rw [bytes_writes hc (Ne.symm hpercent.1) (Ne.symm hplus.1), ih hpercent.2 hplus.2]
    rfl

/-- However a text is written, it is decoded to itself. -/
theorem decode_encodes {s e : Text} (h : Encodes s e) (hpercent : '%' ∉ s) (hplus : '+' ∉ s) :
    decode e = s := by
  rw [decode_eq, bytes_encodes h hpercent hplus, Utf8.decodeLossy_encode]

/-- A text writes itself. -/
theorem encodes_self (s : Text) : Encodes s s := by
  induction s with
  | nil => exact .nil
  | cons c s ih => exact .cons (.plain c) ih

/-- A text without escapes is decoded to itself. -/
theorem decode_of_notMem {s : Text} (hpercent : '%' ∉ s) (hplus : '+' ∉ s) : decode s = s :=
  decode_encodes (encodes_self s) hpercent hplus

end Cleaning

namespace Cleaner

open Cleaning

/-- **A value is cleaned alike however it is written.** For a text without percent and plus signs, take
any value that writes each of its characters as it is or with an escape for each byte, digits in either
letter case, and each of its spaces perhaps as a plus sign. Unless words are written apart, this value
is cleaned to what the text itself is cleaned to. -/
theorem clean_encodes {s e : Text} (h : Encodes s e) (hpercent : '%' ∉ s) (hplus : '+' ∉ s)
    {k : Cleaner} (hk : k.enhanced = false) (lower : Bool) : k.clean lower e = k.clean lower s := by
  have hdecode : decode e = decode s := by
    rw [decode_encodes h hpercent hplus, decode_of_notMem hpercent hplus]
  simp only [clean, hk, Bool.false_eq_true, if_false, hdecode]

/-- A value with letters, a space and a slash, some of them escaped. -/
theorem clean_encodes_accented :
    let s : Text := ['C', '\u00e9', ' ', '/', '1']
    let e : Text := "C%c3%A9+%2F%31".toList
    Encodes s e ∧ '%' ∉ s ∧ '+' ∉ s ∧
      (⟨.fullClean, false⟩ : Cleaner).clean true e = (⟨.fullClean, false⟩ : Cleaner).clean true s ∧
      (⟨.fullClean, false⟩ : Cleaner).clean true s = "ce-/1".toList := by
  intro s e
  have hacute : Writes '\u00e9' ["%c3".toList, "%A9".toList].flatten :=
    .escaped (.cons ⟨'c', '3', rfl, rfl, rfl⟩ (.cons ⟨'A', '9', rfl, rfl, rfl⟩ .nil))
  have hslash : Writes '/' ["%2F".toList].flatten := .escaped (.cons ⟨'2', 'F', rfl, rfl, rfl⟩ .nil)
  have hone : Writes '1' ["%31".toList].flatten := .escaped (.cons ⟨'3', '1', rfl, rfl, rfl⟩ .nil)
  have hencodes : Encodes s e :=
    .cons (.plain 'C') (.cons hacute (.cons .plus (.cons hslash (.cons hone .nil))))
  exact ⟨hencodes, by decide, by decide, clean_encodes hencodes (by decide) (by decide) rfl true,
    by decide +kernel⟩

end Cleaner

end Detour
