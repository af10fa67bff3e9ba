import Detour.Instant.Reading
import Detour.Proofs.Calendar
import Detour.Proofs.Numeral

/-!
# Instants written and read back

An instant that is a date and a time of day is read back from the way it is written, in any year and
also in a leap second. A leap second has a sign of its own, second 60, only behind second 59; one
behind another second would be written like the second that follows.

* `Instant.IsCivil`: the instant is a date and a time of day.
* `Instant.isCivil_of_ofCivil?` and `Instant.ofCivil?_spec`: these are exactly the instants that are
  read from dates and times of universal time.
* `Instant.readLoose?_write`: what was written is read back, and by `Instant.isCivil_of_readLoose?`
  nothing else is ever read.
* `Instant.settled` is what is read back of any instant (`Instant.readLoose?_write_settled`).
-/

namespace Detour

namespace Instant

/-- An instant that is a date and a time of day, within the bounds on years. -/
structure IsCivil (t : Instant) : Prop where
  /-- its year is within bounds -/
  inRange : t.isInRange
  /-- its part of a second is less than two seconds -/
  nanos : t.nanos < 2 * second
  /-- a leap second follows the last second of a minute -/
  leap : second ≤ t.nanos → t.seconds % 60 = 59

instance (t : Instant) : Decidable t.IsCivil :=
  decidable_of_iff (t.isInRange ∧ t.nanos < 2 * second ∧ (second ≤ t.nanos → t.seconds % 60 = 59))
    ⟨fun ⟨hrange, hnanos, hleap⟩ => ⟨hrange, hnanos, hleap⟩,
      fun h => ⟨h.inRange, h.nanos, h.leap⟩⟩

/-! ### Numbers and signs -/

/-- No digit is blank. -/
theorem isBlank_of_isDigit {c : Char} (h : c.isDigit) : isBlank c = false := by
  simp only [Char.isDigit, Bool.and_eq_true, decide_eq_true_eq, ge_iff_le, UInt32.le_iff_toNat_le]
    at h
  have hlow : 48 ≤ c.toNat := h.1
  have hhigh : c.toNat ≤ 57 := h.2
  have hascii := isBlank_ascii ⟨c.toNat, by omega⟩
  rw [Char.ofNat_toNat] at hascii
  rw [hascii]
  simp
  omega

/-- A sign that is no digit may end a number. -/
def EndsNumber (rest : Text) : Prop := ∀ c, rest.head? = some c → c.isDigit = false

/-- Of digits in front of something else, or of as many as are looked for, all are found. -/
theorem takeWhile_take_append {most : Nat} {ds rest : Text} (hdigits : ∀ c ∈ ds, c.isDigit)
    (hmost : ds.length ≤ most) (hend : ds.length = most ∨ EndsNumber rest) :
    ((ds ++ rest).take most).takeWhile Char.isDigit = ds := by
  rw [List.take_append, List.take_of_length_le hmost]
  refine takeWhile_append_of_head hdigits fun c hc => ?_
  rw [List.head?_take] at hc
  rcases hend with hend | hend
  · rw [hend, Nat.sub_self] at hc
    cases hc
  · split at hc
    · cases hc
    · exact hend c hc

/-- Digits in front of something else, or as many as are looked for, are read as a number. -/
theorem digits?_append {least most : Nat} {ds rest : Text} (hdigits : ∀ c ∈ ds, c.isDigit)
    (hleast : least ≤ ds.length) (hmost : ds.length ≤ most)
    (hend : ds.length = most ∨ EndsNumber rest) :
    digits? least most (ds ++ rest) = some (decimal ds, rest) := by
  simp only [digits?, takeWhile_take_append hdigits hmost hend, if_neg (Nat.not_lt.2 hleast),
    List.drop_left]

/-- A padded number begins with a digit. -/
theorem writePadded_cons {width : Nat} (hwidth : 0 < width) (n : Nat) :
    ∃ c ds, writePadded width n = c :: ds ∧ c.isDigit ∧ isBlank c = false := by
  rcases hpadded : writePadded width n with _ | ⟨c, ds⟩
  · have := (length_writePadded width n).1
    rw [hpadded, List.length_nil] at this
    omega
  · have hc : c.isDigit := isDigit_of_mem_writePadded (by rw [hpadded]; exact List.mem_cons_self)
    exact ⟨c, ds, rfl, hc, isBlank_of_isDigit hc⟩

/-- Two digits are read as the number that they were written for. -/
theorem field?_writePadded {n : Nat} (h : n < 100) (rest : Text) :
    field? 2 (writePadded 2 n ++ rest) = some (n, rest) := by
  have hlength := (length_writePadded 2 n).2 (by decide) h
  have htrim : Text.trimStart isBlank (writePadded 2 n ++ rest) = writePadded 2 n ++ rest := by
    obtain ⟨c, ds, hpadded, -, hblank⟩ := writePadded_cons (by decide : 0 < 2) n
    simp [hpadded, Text.trimStart, hblank]
  rw [field?, htrim, digits?_append (fun _ => isDigit_of_mem_writePadded) (by omega) (by omega)
    (.inl hlength), decimal_writePadded]

/-- A year is read as it was written, up to the sign behind it. -/
theorem year?_writeYear (year : Int) {rest : Text} (hrest : EndsNumber rest) :
    year? (writeYear year ++ rest) = some (year, rest) := by
  -- behind a sign there may be any number of digits
  have hsigned : ∀ n : Nat, digits? 1 (writePadded 4 n ++ rest).length (writePadded 4 n ++ rest) =
      some (n, rest) := by
    intro n
    have := (length_writePadded 4 n).1
    rw [digits?_append (fun _ => isDigit_of_mem_writePadded) (by omega) (by simp) (.inr hrest),
      decimal_writePadded]
  have hminus : isBlank '-' = false := by decide
  have hplus : isBlank '+' = false := by decide
  unfold writeYear
  split
  · rename_i hyear
    obtain ⟨n, rfl⟩ := Int.eq_ofNat_of_zero_le hyear.1
    have hlength := (length_writePadded 4 n).2 (by decide) (by omega)
    have hread : digits? 1 4 (writePadded 4 n ++ rest) = some (n, rest) := by
      rw [digits?_append (fun _ => isDigit_of_mem_writePadded) (by omega) (by omega) (.inl hlength),
        decimal_writePadded]
    rw [Int.toNat_natCast]
    obtain ⟨c, ds, hpadded, hdigit, hblank⟩ := writePadded_cons (by decide : 0 < 4) n
    have htrim : Text.trimStart isBlank (writePadded 4 n ++ rest) = c :: (ds ++ rest) := by
      simp [hpadded, Text.trimStart, hblank]
    have hsigns : c ≠ '-' ∧ c ≠ '+' := by
      refine ⟨?_, ?_⟩ <;>
        · rintro rfl
          exact absurd hdigit (by decide)
    rw [hpadded, List.cons_append] at hread
    simp [year?, htrim, hsigns, hread]
  · rename_i hyear
    split
    · rename_i hnegative
      have habs : -(year.natAbs : Int) = year := by omega
      have htrim : Text.trimStart isBlank ('-' :: (writePadded 4 year.natAbs ++ rest)) =
          '-' :: (writePadded 4 year.natAbs ++ rest) := by
        simp [Text.trimStart, hminus]
      simp only [List.cons_append, List.nil_append, year?, htrim, hsigned, Option.map_some, habs]
    · rename_i hpositive
      have habs : (year.natAbs : Int) = year := by omega
      have htrim : Text.trimStart isBlank ('+' :: (writePadded 4 year.natAbs ++ rest)) =
          '+' :: (writePadded 4 year.natAbs ++ rest) := by
        simp [Text.trimStart, hplus]
      simp only [List.cons_append, List.nil_append, year?, htrim, hsigned, Option.map_some, habs]

/-- A part of a second is read as it was written, up to the sign behind it. -/
theorem fraction?_writeFraction {nanos : Nat} (h : nanos < second) {c : Char} (hc : c ≠ '.')
    (hdigit : c.isDigit = false) (rest : Text) :
    fraction? (writeFraction nanos ++ c :: rest) = some (nanos, c :: rest) := by
  -- the digits that are left out are zeros
  have hpart : ∀ width n, 0 < width → width ≤ 9 → n < 10 ^ width →
      fraction? ('.' :: writePadded width n ++ c :: rest) =
        some (n * 10 ^ (9 - width), c :: rest) := by
    intro width n hwidth hnine hn
    have hlength := (length_writePadded width n).2 hwidth hn
    have hdigits : ∀ d ∈ writePadded width n, d.isDigit := fun _ => isDigit_of_mem_writePadded
    have htake : ((writePadded width n ++ c :: rest).take 9).takeWhile Char.isDigit =
        writePadded width n := by
      refine takeWhile_take_append hdigits (by omega) (.inr fun d hd => ?_)
      rw [← Option.some.inj hd, hdigit]
    have hdrop : (writePadded width n ++ c :: rest).dropWhile Char.isDigit = c :: rest := by
      rw [List.dropWhile_append_of_pos hdigits]
      simp [hdigit]
    have hne : (writePadded width n).isEmpty = false := by
      rw [List.isEmpty_eq_false_iff]
      intro hnil
      rw [hnil] at hlength
      exact absurd hlength (by simp; omega)
    simp only [List.cons_append, fraction?, htake, hdrop, hne, hlength, decimal_append_zeros,
      decimal_writePadded, if_false, Bool.false_eq_true]
  have hsecond : second = 10 ^ 9 := rfl
  rw [hsecond] at h
  unfold writeFraction
  split
  · rename_i hzero
    subst hzero
    unfold fraction?
    split
    · rename_i heq
      exact absurd (List.cons.inj heq).1 hc
    · rfl
  split
  · rw [hpart 3 (nanos / 1000000) (by decide) (by decide) (by omega)]
    congr 2
    omega
  split
  · rw [hpart 6 (nanos / 1000) (by decide) (by decide) (by omega)]
    congr 2
    omega
  · rw [hpart 9 nanos (by decide) (by decide) h]
    simp

/-- A sign is read where it stands. -/
theorem looseSign?_cons {c : Char} (hc : isBlank c = false) (rest : Text) :
    looseSign? c (c :: rest) = some rest := by
  simp [looseSign?, Text.trimStart, hc, sign?]

/-! ### Dates and times of day -/

/-- An instant that is read from a date and a time is one: behind second 59 it may be in a leap second,
as far as the offset is whole minutes. -/
theorem isCivil_of_ofCivil? {date : Date} {hour minute sec nanos : Nat} {offset : Int} {t : Instant}
    (hnanos : nanos < second) (hoffset : offset % 60 = 0)
    (h : ofCivil? date hour minute sec nanos offset = some t) : t.IsCivil := by
  simp only [ofCivil?, Option.ite_none_right_eq_some, Option.some.injEq] at h
  obtain ⟨-, hrange, rfl⟩ := h
  refine ⟨hrange, ?_, fun hleap => ?_⟩
  · simp only
    split <;> omega
  · simp only at hleap ⊢
    split at hleap <;> omega

/-- A fraction is less than a second. -/
theorem fraction?_lt {s rest : Text} {nanos : Nat} (h : fraction? s = some (nanos, rest)) :
    nanos < second := by
  have hsecond : second = 10 ^ 9 := rfl
  unfold fraction? at h
  split at h
  · rename_i s
    dsimp only at h
    split at h
    · cases h
    · obtain ⟨rfl, -⟩ := Prod.mk.inj (Option.some.inj h)
      have hlength : ((s.take 9).takeWhile Char.isDigit ++
          List.replicate (9 - ((s.take 9).takeWhile Char.isDigit).length) '0').length = 9 := by
        have := (List.takeWhile_prefix Char.isDigit (l := s.take 9)).length_le
        rw [List.length_take] at this
        rw [List.length_append, List.length_replicate]
        omega
      have hdigits : ∀ c ∈ (s.take 9).takeWhile Char.isDigit ++
          List.replicate (9 - ((s.take 9).takeWhile Char.isDigit).length) '0', c.isDigit := by
        intro c hc
        rcases List.mem_append.1 hc with hc | hc
        · exact List.all_eq_true.1 List.all_takeWhile c hc
        · rw [(List.mem_replicate.1 hc).2]
          rfl
      have hless := decimal_lt hdigits
      rwa [hlength, ← hsecond] at hless
  · obtain ⟨rfl, -⟩ := Prod.mk.inj (Option.some.inj h)
    decide

/-- An offset is whole minutes. -/
theorem offset?_mod {between : Text → Option Text} {s rest : Text} {offset : Int}
    (h : offset? between s = some (offset, rest)) : offset % 60 = 0 := by
  unfold offset? at h
  split at h
  · obtain ⟨rfl, -⟩ := Prod.mk.inj (Option.some.inj h)
    rfl
  · obtain ⟨rfl, -⟩ := Prod.mk.inj (Option.some.inj h)
    rfl
  · split at h
    · obtain ⟨⟨hours, s⟩, -, h⟩ := Option.bind_eq_some_iff.1 h
      obtain ⟨s, -, h⟩ := Option.bind_eq_some_iff.1 h
      obtain ⟨⟨minutes, s⟩, -, h⟩ := Option.bind_eq_some_iff.1 h
      simp only [Option.ite_none_right_eq_some, Option.some.injEq, Prod.mk.injEq] at h
      obtain ⟨-, rfl, -⟩ := h
      split <;> omega
    · cases h
  · cases h

/-- What is read of a record is a date and a time of day. -/
theorem isCivil_of_readLoose? {s : Text} {t : Instant} (h : readLoose? s = some t) : t.IsCivil := by
  unfold readLoose? at h
  obtain ⟨⟨year, s⟩, -, h⟩ := Option.bind_eq_some_iff.1 h
  obtain ⟨s, -, h⟩ := Option.bind_eq_some_iff.1 h
  obtain ⟨⟨month, s⟩, -, h⟩ := Option.bind_eq_some_iff.1 h
  obtain ⟨s, -, h⟩ := Option.bind_eq_some_iff.1 h
  obtain ⟨⟨day, s⟩, -, h⟩ := Option.bind_eq_some_iff.1 h
  obtain ⟨s, -, h⟩ := Option.bind_eq_some_iff.1 h
  obtain ⟨⟨hour, s⟩, -, h⟩ := Option.bind_eq_some_iff.1 h
  obtain ⟨s, -, h⟩ := Option.bind_eq_some_iff.1 h
  obtain ⟨⟨minute, s⟩, -, h⟩ := Option.bind_eq_some_iff.1 h
  obtain ⟨s, -, h⟩ := Option.bind_eq_some_iff.1 h
  obtain ⟨⟨sec, s⟩, -, h⟩ := Option.bind_eq_some_iff.1 h
  obtain ⟨⟨nanos, s⟩, hnanos, h⟩ := Option.bind_eq_some_iff.1 h
  dsimp only at h
  split at h
  · obtain ⟨⟨offset, s⟩, hoffset, h⟩ := Option.bind_eq_some_iff.1 h
    obtain ⟨rfl, -⟩ := Prod.mk.inj (Option.some.inj hoffset)
    simp only [Option.ite_none_right_eq_some] at h
    exact isCivil_of_ofCivil? (fraction?_lt hnanos) rfl h.2
  · obtain ⟨⟨offset, s⟩, hoffset, h⟩ := Option.bind_eq_some_iff.1 h
    simp only [Option.ite_none_right_eq_some] at h
    exact isCivil_of_ofCivil? (fraction?_lt hnanos) (offset?_mod hoffset) h.2

/-- The days of the years of instants. -/
theorem isInRange_iff (t : Instant) : t.isInRange ↔
    Date.yearStart firstYear * 86400 ≤ t.seconds + Date.origin * 86400 ∧
      t.seconds + Date.origin * 86400 < Date.yearStart (lastYear + 1) * 86400 := by
  have hfirst : Date.toDay ⟨firstYear, 1, 1⟩ + Date.origin = Date.yearStart firstYear := by decide
  have hlast : Date.toDay ⟨lastYear, 12, 31⟩ + 1 + Date.origin = Date.yearStart (lastYear + 1) := by
    decide
  simp only [isInRange, Bool.and_eq_true, decide_eq_true_eq]
  omega

/-- The date and the time of day of an instant. -/
theorem ofCivil?_spec {t : Instant} (h : t.IsCivil) :
    ofCivil? (Date.ofDay (t.seconds / 86400)) ((t.seconds % 86400).toNat / 3600)
      ((t.seconds % 86400).toNat / 60 % 60)
      ((t.seconds % 86400).toNat % 60 + if t.nanos < second then 0 else 1)
      (t.nanos % second) 0 = some t := by
  obtain ⟨hrange, hnanos, hleap⟩ := h
  obtain ⟨hvalid, hday, -, -⟩ := Date.ofDay_spec (t.seconds / 86400)
  obtain ⟨hbegins, hends⟩ := (isInRange_iff t).1 hrange
  obtain ⟨hfirst, hlast⟩ := @Date.year_ofDay_bounds (t.seconds / 86400) firstYear lastYear
    (by omega) (by omega)
  have hsecond : second = 1000000000 := rfl
  have hclock : ((t.seconds % 86400).toNat : Int) = t.seconds % 86400 := Int.toNat_of_nonneg (by omega)
  have hsixty : ((t.seconds % 86400).toNat % 60 + if t.nanos < second then 0 else 1) = 60 ↔
      second ≤ t.nanos := by
    split <;> omega
  have hbounds : ((t.seconds % 86400).toNat % 60 + if t.nanos < second then 0 else 1) ≤ 60 := by
    split <;> omega
  have htime : ((t.seconds % 86400).toNat / 3600 * 3600 + (t.seconds % 86400).toNat / 60 % 60 * 60 +
      min ((t.seconds % 86400).toNat % 60 + if t.nanos < second then 0 else 1) 59) =
        (t.seconds % 86400).toNat := by
    split <;> omega
  have hpart : (t.nanos % second + if second ≤ t.nanos then second else 0) = t.nanos := by
    simp only [hsecond] at hnanos ⊢
    split <;> omega
  have hself : (⟨t.seconds / 86400 * 86400 + ((t.seconds % 86400).toNat : Nat) - 0, t.nanos⟩ :
      Instant) = t := by
    have hseconds : t.seconds / 86400 * 86400 + t.seconds % 86400 - 0 = t.seconds := by omega
    rw [hclock, hseconds]
  have hdate : ((Date.ofDay (t.seconds / 86400)).isValid &&
      decide (firstYear ≤ (Date.ofDay (t.seconds / 86400)).year) &&
      decide ((Date.ofDay (t.seconds / 86400)).year ≤ lastYear) &&
      decide ((t.seconds % 86400).toNat / 3600 < 24) &&
      decide ((t.seconds % 86400).toNat / 60 % 60 < 60) &&
      decide (((t.seconds % 86400).toNat % 60 + if t.nanos < second then 0 else 1) ≤ 60)) = true := by
    simp only [hvalid, hfirst, hlast, hbounds, Bool.and_eq_true, decide_eq_true_eq, true_and, and_true]
    omega
  simp only [ofCivil?, hdate, hday, htime, hsixty, hpart, hself, hrange, if_true]

/-- A date and a time of universal time are read number by number. -/
theorem readLoose?_parts (year : Int) (month day hour minute sec nanos : Nat) (hmonth : month < 100)
    (hday : day < 100) (hhour : hour < 100) (hminute : minute < 100) (hsec : sec < 100)
    (hnanos : nanos < second) :
    readLoose? (writeYear year ++ '-' :: (writePadded 2 month ++ '-' :: (writePadded 2 day ++ 'T' ::
      (writePadded 2 hour ++ ':' :: (writePadded 2 minute ++ ':' :: (writePadded 2 sec ++
        (writeFraction nanos ++ ['Z']))))))) =
      ofCivil? ⟨year, month, day⟩ hour minute sec nanos 0 := by
  have hminus : isBlank '-' = false := by decide
  have hcolon : isBlank ':' = false := by decide
  have hsign : ∀ rest : Text, EndsNumber ('-' :: rest) := by
    rintro rest c hc
    rw [← Option.some.inj hc]
    rfl
  have htime : ∀ rest : Text, timeSign? ('T' :: rest) = some rest := fun _ => rfl
  have hfraction := fraction?_writeFraction hnanos (by decide : 'Z' ≠ '.') rfl []
  have hzone : Text.trimStart isBlank ['Z'] = ['Z'] := by decide
  have hutc : (['Z'].take 3).map Char.toUpper ≠ ['U', 'T', 'C'] := by decide
  have hoffset : ∀ between, offset? between ['Z'] = some (0, []) := fun _ => rfl
  have hend : (Text.trimStart isBlank []).isEmpty = true := rfl
  have step {α β : Type} (a : α) (f : α → Option β) : (some a >>= f) = f a := rfl
  unfold readLoose?
  rw [year?_writeYear _ (hsign _), step]
  dsimp only
  rw [looseSign?_cons hminus, step, field?_writePadded hmonth, step]
  dsimp only
  rw [looseSign?_cons hminus, step, field?_writePadded hday, step]
  dsimp only
  rw [htime, step, field?_writePadded hhour, step]
  dsimp only
  rw [looseSign?_cons hcolon, step, field?_writePadded hminute, step]
  dsimp only
  rw [looseSign?_cons hcolon, step, field?_writePadded hsec, step]
  dsimp only
  rw [hfraction, step]
  dsimp only
  rw [hzone, if_neg hutc, hoffset, step]
  dsimp only
  rw [if_pos hend]

/-- An instant that is a date and a time of day is read back from the way it is written. -/
theorem readLoose?_write {t : Instant} (h : t.IsCivil) : readLoose? t.write = some t := by
  obtain ⟨hvalid, -⟩ := Date.ofDay_spec (t.seconds / 86400)
  have hmonths := Date.monthLength_le (Date.ofDay (t.seconds / 86400)).year
    (Date.ofDay (t.seconds / 86400)).month
  simp only [Date.isValid, Bool.and_eq_true, decide_eq_true_eq] at hvalid
  have hsec : ((t.seconds % 86400).toNat % 60 + if t.nanos < second then 0 else 1) < 100 := by
    split <;> omega
  have hparts := readLoose?_parts (Date.ofDay (t.seconds / 86400)).year
    (Date.ofDay (t.seconds / 86400)).month (Date.ofDay (t.seconds / 86400)).day
    ((t.seconds % 86400).toNat / 3600) ((t.seconds % 86400).toNat / 60 % 60) _ (t.nanos % second)
    (by omega) (by omega) (by omega) (by omega) hsec (Nat.mod_lt _ (by decide))
  rw [ofCivil?_spec h] at hparts
  rw [← hparts]
  simp [write]

/-! ### What is read back of any instant -/

/-- Whether there is such an instant: its year is within bounds, and its part of a second is less than two
seconds. -/
structure IsRepresentable (t : Instant) : Prop where
  /-- its year is within bounds -/
  inRange : t.isInRange
  /-- its part of a second is less than two seconds -/
  nanos : t.nanos < 2 * second

instance (t : Instant) : Decidable t.IsRepresentable :=
  decidable_of_iff (t.isInRange ∧ t.nanos < 2 * second)
    ⟨fun ⟨hrange, hnanos⟩ => ⟨hrange, hnanos⟩, fun h => ⟨h.inRange, h.nanos⟩⟩

/-- An instant as it is read back: a leap second that does not end a minute has become the second that
follows. -/
def settled (t : Instant) : Instant :=
  if second ≤ t.nanos ∧ t.seconds % 60 ≠ 59 then ⟨t.seconds + 1, t.nanos - second⟩ else t

/-- A date and a time of day can be represented. -/
theorem IsCivil.isRepresentable {t : Instant} (h : t.IsCivil) : t.IsRepresentable := ⟨h.inRange, h.nanos⟩

/-- The instants that stay as they are are those that are a date and a time of day. -/
theorem settled_eq_iff {t : Instant} (h : t.IsRepresentable) : t.settled = t ↔ t.IsCivil := by
  rw [settled]
  constructor
  · intro heq
    refine ⟨h.inRange, h.nanos, fun hleap => ?_⟩
    split at heq
    · have hseconds : t.seconds + 1 = t.seconds := congrArg seconds heq
      omega
    · rename_i hnot
      exact Decidable.not_not.1 fun hne => hnot ⟨hleap, hne⟩
  · intro hcivil
    rw [if_neg fun hodd => hodd.2 (hcivil.leap hodd.1)]

/-- What is read back is a date and a time of day. -/
theorem isCivil_settled {t : Instant} (h : t.IsRepresentable) : t.settled.IsCivil := by
  obtain ⟨hbegins, hends⟩ := (isInRange_iff t).1 h.inRange
  have hnanos := h.nanos
  rw [settled]
  split
  · rename_i hodd
    refine ⟨(isInRange_iff _).2 ⟨?_, ?_⟩, ?_, fun hleap => ?_⟩
    · dsimp only
      omega
    · -- the last second of all ends a minute, so that this one is not the last
      have hlast : (Date.yearStart (lastYear + 1) * 86400 - Date.origin * 86400) % 60 = 0 := by decide
      dsimp only
      omega
    · dsimp only
      omega
    · dsimp only at hleap
      omega
  · rename_i hnot
    exact ⟨h.inRange, hnanos, fun hleap => Decidable.not_not.1 fun hne => hnot ⟨hleap, hne⟩⟩

/-- An instant is written like the one that is read back. -/
theorem write_settled {t : Instant} (h : t.IsRepresentable) : t.settled.write = t.write := by
  have hnanos := h.nanos
  rw [settled]
  split
  · rename_i hodd
    have hday : (t.seconds + 1) / 86400 = t.seconds / 86400 := by omega
    have hclock : ((t.seconds + 1) % 86400).toNat = (t.seconds % 86400).toNat + 1 := by omega
    have hpart : t.nanos - second < second := by omega
    have hrest : (t.nanos - second) % second = t.nanos % second := (Nat.mod_eq_sub_mod hodd.1).symm
    have hhour : ((t.seconds % 86400).toNat + 1) / 3600 = (t.seconds % 86400).toNat / 3600 := by omega
    have hminute : ((t.seconds % 86400).toNat + 1) / 60 = (t.seconds % 86400).toNat / 60 := by omega
    have hsec : ((t.seconds % 86400).toNat + 1) % 60 = (t.seconds % 86400).toNat % 60 + 1 := by omega
    rw [write, write]
    simp only [hday, hclock, hhour, hminute, hsec, hrest, if_pos hpart, if_neg (Nat.not_lt.2 hodd.1),
      Nat.add_zero]
  · rfl

/-- **What is read back of an instant.** -/
theorem readLoose?_write_settled {t : Instant} (h : t.IsRepresentable) :
    readLoose? t.write = some t.settled := by
  rw [← write_settled h]
  exact readLoose?_write (isCivil_settled h)

/-- A leap second behind another second than the last of a minute is written like the second that
follows. -/
example : settled ⟨30, 1500000000⟩ = ⟨31, 500000000⟩ := by decide

end Instant
end Detour
