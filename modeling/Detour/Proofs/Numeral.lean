import Detour.Text.Digits
import Mathlib.Data.List.Induction
import Mathlib.Data.Nat.Digits.Defs

/-!
# Numbers as digits and back

A number that is written as digits, with or without zeros before them, is read as the same number.

* `decimal_writeNat` and `decimal_writePadded` read what was written;
* `writeNat_spec` says what else is known of the digits;
* `exists_zeros_writeNat`: any digits are zeros and a number as it is written, and `readUInt64?_eq_some_iff`
  says what is read as a number of 64 bits.
-/

namespace Detour

/-- What is known of the digits of a number: there are some, all are digits, and only zero begins with
a zero. -/
theorem writeNat_spec (n : Nat) : writeNat n ≠ [] ∧ (∀ c ∈ writeNat n, c.isDigit) ∧
    ((writeNat n).head? = some '0' → n = 0) := by
  refine ⟨Nat.toDigits_ne_nil, fun c hc => Nat.isDigit_of_mem_toDigits (by decide) (by decide) hc, ?_⟩
  induction n using Nat.strongRecOn with
  | _ n ih =>
    intro hzero
    rw [writeNat, Nat.toDigits_eq_if (by decide)] at hzero
    split at hzero
    · rename_i hn
      have hdigits : ∀ m < 10, m.digitChar = '0' → m = 0 := by decide
      exact hdigits n hn (Option.some.inj hzero)
    · rename_i hn
      have hne : Nat.toDigits 10 (n / 10) ≠ [] := Nat.toDigits_ne_nil
      rw [List.head?_append, List.head?_eq_some_head hne, Option.some_or,
        ← List.head?_eq_some_head hne] at hzero
      have := ih (n / 10) (by omega) hzero
      omega

/-- The digits of a number denote it. -/
theorem decimal_writeNat (n : Nat) : decimal (writeNat n) = n := Nat.ofDigitChars_ten_toDigits

/-- Zeros before some digits do not change what they denote. -/
theorem decimal_zeros (k : Nat) (s : Text) : decimal (List.replicate k '0' ++ s) = decimal s := by
  induction k with
  | zero => rfl
  | succ k ih => exact ih

/-- So many digits denote less than a one with so many zeros. -/
theorem decimal_lt {s : Text} (h : ∀ c ∈ s, c.isDigit) : decimal s < 10 ^ s.length := by
  have hfold : ∀ (t : Text) (n : Nat), (∀ c ∈ t, c.isDigit) →
      t.foldl (fun n c => 10 * n + (c.toNat - '0'.toNat)) n < (n + 1) * 10 ^ t.length := by
    intro t
    induction t with
    | nil => simp
    | cons c t ih =>
      intro n ht
      have hc := ht c List.mem_cons_self
      simp only [Char.isDigit, Bool.and_eq_true, decide_eq_true_eq, ge_iff_le,
        UInt32.le_iff_toNat_le] at hc
      have hhigh : c.toNat ≤ 57 := hc.2
      have hzero : '0'.toNat = 48 := rfl
      rw [List.foldl_cons, List.length_cons, Nat.pow_succ]
      refine (ih _ fun d hd => ht d (List.mem_cons_of_mem c hd)).trans_le ?_
      rw [Nat.mul_comm (10 ^ t.length), ← Nat.mul_assoc]
      exact Nat.mul_le_mul_right _ (by omega)
  have hstart := hfold s 0 h
  rwa [Nat.zero_add, Nat.one_mul] at hstart

/-- A zero behind some digits makes what they denote ten times as large. -/
theorem decimal_append_zeros (s : Text) (k : Nat) :
    decimal (s ++ List.replicate k '0') = decimal s * 10 ^ k := by
  induction k with
  | zero => simp
  | succ k ih =>
    have hone : ∀ t : Text, decimal (t ++ ['0']) = 10 * decimal t := by
      intro t
      simp [decimal, numberOf]
    rw [List.replicate_succ', ← List.append_assoc, hone, ih, Nat.pow_succ]
    ring

/-- A padded number denotes the number. -/
theorem decimal_writePadded (width n : Nat) : decimal (writePadded width n) = n := by
  rw [writePadded, decimal_zeros, decimal_writeNat]

/-- A padded number has only digits. -/
theorem isDigit_of_mem_writePadded {width n : Nat} {c : Char} (h : c ∈ writePadded width n) :
    c.isDigit := by
  rcases List.mem_append.1 h with h | h
  · rw [(List.mem_replicate.1 h).2]
    rfl
  · exact (writeNat_spec n).2.1 c h

/-- A padded number has at least the digits asked for, and no more if it is small enough. -/
theorem length_writePadded (width n : Nat) : width ≤ (writePadded width n).length ∧
    (0 < width → n < 10 ^ width → (writePadded width n).length = width) := by
  rw [writePadded, List.length_append, List.length_replicate]
  refine ⟨by omega, fun hwidth hn => ?_⟩
  have := (Nat.length_toDigits_le_iff (by decide) hwidth).2 hn
  rw [writeNat]
  omega

/-- A digit denotes a number below ten, which is written as the digit. -/
theorem writeNat_digit {c : Char} (h : c.isDigit) :
    c.toNat - '0'.toNat < 10 ∧ writeNat (c.toNat - '0'.toNat) = [c] := by
  have hall : ∀ n : Fin 10, writeNat n = [Char.ofNat (48 + n)] := by decide
  simp only [Char.isDigit, Bool.and_eq_true, decide_eq_true_eq, ge_iff_le, UInt32.le_iff_toNat_le] at h
  have hlow : 48 ≤ c.toNat := h.1
  have hhigh : c.toNat ≤ 57 := h.2
  have hzero : '0'.toNat = 48 := rfl
  have hlt : c.toNat - 48 < 10 := by omega
  refine ⟨hlt, ?_⟩
  have hdigit := hall ⟨c.toNat - 48, hlt⟩
  rwa [Nat.add_sub_cancel' hlow, Char.ofNat_toNat] at hdigit

/-- Digits are zeros, and behind them the number that they denote as it is written. -/
theorem exists_zeros_writeNat {s : Text} (hne : s ≠ []) (h : ∀ c ∈ s, c.isDigit) :
    ∃ k, s = List.replicate k '0' ++ writeNat (decimal s) := by
  induction s using List.reverseRecOn with
  | nil => exact absurd rfl hne
  | append_singleton t c ih =>
    obtain ⟨hlt, hdigit⟩ := writeNat_digit (h c (by simp))
    have hlast : decimal (t ++ [c]) = 10 * decimal t + (c.toNat - '0'.toNat) := by
      simp [decimal, numberOf]
    by_cases hnil : t = []
    · subst hnil
      have hnone : decimal [] = 0 := rfl
      rw [hlast, hnone, Nat.mul_zero, Nat.zero_add, hdigit]
      exact ⟨0, rfl⟩
    obtain ⟨k, hk⟩ := ih hnil fun d hd => h d (List.mem_append_left _ hd)
    by_cases hzero : decimal t = 0
    · -- nothing but zeros in front of the digit
      refine ⟨k + 1, ?_⟩
      rw [hzero] at hk
      rw [hlast, hzero, Nat.mul_zero, Nat.zero_add, hdigit, List.replicate_succ']
      exact congrArg (· ++ [c]) hk
    · refine ⟨k, ?_⟩
      have hwrite := Nat.toDigits_append_toDigits (by decide) (Nat.pos_of_ne_zero hzero) hlt
      rw [hlast, writeNat, ← hwrite, ← List.append_assoc]
      exact congrArg₂ (· ++ ·) hk hdigit.symm
/-- What is read as a number of 64 bits: the number as it is written, perhaps with zeros before it and a
plus sign before these. -/
theorem readUInt64?_eq_some_iff {s : Text} {n : UInt64} : readUInt64? s = some n ↔ ∃ plus zeros,
    s = plus ++ (List.replicate zeros '0' ++ writeNat n.toNat) ∧ (plus = [] ∨ plus = ['+']) := by
  constructor
  · intro h
    obtain ⟨plus, hplus, hs⟩ : ∃ plus, (plus = [] ∨ plus = ['+']) ∧
        s = plus ++ (Text.after? ['+'] s).getD s := by
      cases hafter : Text.after? ['+'] s with
      | none => exact ⟨[], .inl rfl, rfl⟩
      | some rest => exact ⟨['+'], .inr rfl, Text.after?_eq_some_iff.1 hafter⟩
    simp only [readUInt64?] at h
    generalize (Text.after? ['+'] s).getD s = digits at h hs
    obtain ⟨hdigits, h⟩ := Option.ite_none_left_eq_some.1 h
    obtain ⟨hsize, h⟩ := Option.ite_none_right_eq_some.1 h
    simp only [Bool.or_eq_true, List.isEmpty_iff, Bool.not_eq_true', not_or, Bool.not_eq_false,
      List.all_eq_true] at hdigits
    obtain ⟨zeros, hzeros⟩ := exists_zeros_writeNat hdigits.1 hdigits.2
    have hnumber : n.toNat = decimal digits := by
      rw [← Option.some.inj h]
      exact UInt64.toNat_ofNat_of_lt hsize
    exact ⟨plus, zeros, by rw [hnumber, ← hzeros, ← hs], hplus⟩
  · rintro ⟨plus, zeros, rfl, hplus⟩
    obtain ⟨hne, hdigits, -⟩ := writeNat_spec n.toNat
    have hall : ∀ c ∈ List.replicate zeros '0' ++ writeNat n.toNat, c.isDigit := by
      intro c hc
      rcases List.mem_append.1 hc with hc | hc
      · rw [(List.mem_replicate.1 hc).2]
        rfl
      · exact hdigits c hc
    have hdecimal := decimal_zeros zeros (writeNat n.toNat)
    rw [decimal_writeNat] at hdecimal
    have hsome : List.replicate zeros '0' ++ writeNat n.toNat ≠ [] := by simp [hne]
    generalize List.replicate zeros '0' ++ writeNat n.toNat = digits at *
    have hrest : (Text.after? ['+'] (plus ++ digits)).getD (plus ++ digits) = digits := by
      obtain rfl | rfl := hplus
      · cases hafter : Text.after? ['+'] ([] ++ digits) with
        | none => rfl
        | some rest =>
          have hmem : '+' ∈ digits := by
            rw [← List.nil_append digits, Text.after?_eq_some_iff.1 hafter]
            simp
          exact absurd (hall _ hmem) (by decide)
      · rfl
    have hsize : decimal digits < UInt64.size := hdecimal ▸ n.toNat_lt
    have hnumber : UInt64.ofNat (decimal digits) = n := by
      rw [hdecimal]
      exact UInt64.ofNat_toNat
    simp [readUInt64?, hrest, hsome, List.all_eq_true.2 hall, hsize, hnumber]

/-- The digits of 64 bits denote a number of 64 bits. -/
theorem readUInt64?_writeNat (n : UInt64) : readUInt64? (writeNat n.toNat) = some n :=
  readUInt64?_eq_some_iff.2 ⟨[], 0, rfl, .inl rfl⟩

end Detour
