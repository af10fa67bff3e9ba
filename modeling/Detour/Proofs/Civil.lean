import Detour.Proofs.DayCount
import Detour.Proofs.Moment
import Mathlib.Data.List.Induction
import Mathlib.Data.List.TakeWhile

/-!
# Dates and times as they are written

The bounds of rules are dates, or dates and times, in three forms. Each form is told here as a relation
between texts and what they say, and each part of reading is shown to find just that.

* `Instant.IsNumeral`, `Instant.IsField`, `Instant.IsYear`, `Instant.IsFraction`, `Instant.IsZone`: the
  parts. For each there is a lemma that reads it in front of a rest, and one that says what was read.
* `Instant.IsWritten`: the three forms `Instant.IsStrict`, `Instant.IsDateTime` and `Instant.IsDate`, which
  differ in how many signs of a time of day they have, so that no text has two of them.
* `Instant.CivilTime.Denotes`: the instant of a date and a time, by counting days.
* `Instant.readStored?_eq_some_iff` puts this together for the bounds of rules.
-/

namespace Detour

/-- Digits behind others add to what those denote with as many zeros. -/
theorem decimal_append (s t : Text) : decimal (s ++ t) = decimal s * 10 ^ t.length + decimal t := by
  have hconcat (s : Text) (c : Char) :
      decimal (s ++ [c]) = 10 * decimal s + (c.toNat - '0'.toNat) := by
    simp [decimal, numberOf]
  induction t using List.reverseRecOn with
  | nil => simp [decimal, numberOf]
  | append_singleton t c ih =>
    rw [← List.append_assoc, hconcat, hconcat, ih, List.length_append, List.length_singleton,
      Nat.pow_succ]
    ring

namespace Instant

/-! ### Numbers -/

/-- Whether some digits denote a number; at least `least` and at most `most` of them. -/
structure IsNumeral (least most : Nat) (ds : Text) (n : Nat) : Prop where
  /-- there are enough -/
  least_le : least ≤ ds.length
  /-- and not too many -/
  le_most : ds.length ≤ most
  /-- all are digits -/
  digits : ∀ c ∈ ds, c.isDigit
  /-- which denote the number -/
  value : decimal ds = n

/-- A number of one or two digits behind any blanks. -/
inductive IsField : Text → Nat → Prop
  /-- blanks and digits -/
  | mk {bs ds : Text} {n : Nat} : (∀ c ∈ bs, isBlank c) → IsNumeral 1 2 ds n → IsField (bs ++ ds) n

/-- A year behind any blanks: of one to four digits, or of any number of them behind a sign. -/
inductive IsYear : Text → Int → Prop
  /-- without a sign -/
  | plain {bs ds : Text} {n : Nat} : (∀ c ∈ bs, isBlank c) → IsNumeral 1 4 ds n → IsYear (bs ++ ds) n
  /-- behind a plus sign -/
  | plus {bs ds : Text} {n : Nat} : (∀ c ∈ bs, isBlank c) → IsNumeral 1 ds.length ds n →
      IsYear (bs ++ '+' :: ds) n
  /-- behind a minus sign -/
  | minus {bs ds : Text} {n : Nat} : (∀ c ∈ bs, isBlank c) → IsNumeral 1 ds.length ds n →
      IsYear (bs ++ '-' :: ds) (-n)

/-- A part of a second in nanoseconds: nothing, or a point and digits. What is less than a nanosecond is cut
off. -/
inductive IsFraction : Text → Nat → Prop
  /-- no fraction -/
  | absent : IsFraction [] 0
  /-- digits behind a point -/
  | point {ds : Text} {n : Nat} : IsNumeral 1 ds.length ds n →
      IsFraction ('.' :: ds) (n * second / 10 ^ ds.length)

/-- How many seconds a time is ahead of universal time: none behind a `Z`, or hours and minutes behind a
sign. -/
inductive IsZone : Text → Int → Prop
  /-- universal time -/
  | utc {c : Char} : c = 'Z' ∨ c = 'z' → IsZone [c] 0
  /-- ahead of it -/
  | ahead {hs ms : Text} {hours minutes : Nat} : IsNumeral 2 2 hs hours → IsNumeral 2 2 ms minutes →
      hours < 24 → minutes < 60 → IsZone ('+' :: (hs ++ ':' :: ms)) (hours * 3600 + minutes * 60)
  /-- behind it; there are two minus signs -/
  | behind {c : Char} {hs ms : Text} {hours minutes : Nat} : c = '-' ∨ c = '\u2212' →
      IsNumeral 2 2 hs hours → IsNumeral 2 2 ms minutes → hours < 24 → minutes < 60 →
      IsZone (c :: (hs ++ ':' :: ms)) (-(hours * 3600 + minutes * 60))

/-- A text that is not empty ends a number as its first character does. -/
theorem endsNumber_cons {c : Char} (rest : Text) : EndsNumber (c :: rest) ↔ c.isDigit = false := by
  simp [EndsNumber]

/-- A number is read as far as it goes. -/
theorem digits?_numeral {least most n : Nat} {ds rest : Text} (h : IsNumeral least most ds n)
    (hend : ds.length = most ∨ EndsNumber rest) : digits? least most (ds ++ rest) = some (n, rest) := by
  rw [digits?_append h.digits h.least_le h.le_most hend, h.value]

/-- A number of exactly so many digits is read in front of anything. -/
theorem digits?_exact {size n : Nat} {ds : Text} (h : IsNumeral size size ds n) (rest : Text) :
    digits? size size (ds ++ rest) = some (n, rest) :=
  digits?_numeral h (.inl (Nat.le_antisymm h.le_most h.least_le))

/-- What is read as a number is one, and either it has all digits that are looked for or something else
stands behind it. -/
theorem exists_of_digits? {least most n : Nat} {s rest : Text}
    (h : digits? least most s = some (n, rest)) :
    ∃ ds, s = ds ++ rest ∧ IsNumeral least most ds n ∧ (ds.length = most ∨ EndsNumber rest) := by
  have hdigits : ∀ c ∈ (s.take most).takeWhile Char.isDigit, c.isDigit :=
    List.all_eq_true.1 List.all_takeWhile
  have htaken : (s.take most).takeWhile Char.isDigit ++ (s.take most).dropWhile Char.isDigit =
      s.take most := List.takeWhile_append_dropWhile
  have hbehind := List.head?_dropWhile_not Char.isDigit (s.take most)
  simp only [digits?, Option.ite_none_left_eq_some, Option.some.injEq, Prod.mk.injEq, not_lt] at h
  obtain ⟨hleast, rfl, hrest⟩ := h
  generalize (s.take most).takeWhile Char.isDigit = ds at hdigits htaken hleast hrest ⊢
  generalize (s.take most).dropWhile Char.isDigit = more at htaken hbehind
  have hs : s = ds ++ (more ++ s.drop most) := by
    rw [← List.append_assoc, htaken, List.take_append_drop]
  obtain rfl : more ++ s.drop most = rest := by
    rw [← hrest]
    nth_rewrite 2 [hs]
    exact List.drop_left.symm
  have hmost : ds.length + more.length = min most s.length := by
    rw [← List.length_append, htaken, List.length_take]
  refine ⟨ds, hs, ⟨hleast, by omega, hdigits, rfl⟩, ?_⟩
  cases more with
  | cons d more => exact .inr ((endsNumber_cons _).2 (by simpa using hbehind))
  | nil =>
    rcases Nat.lt_or_ge s.length most with hshort | hlong
    · refine .inr fun c hc => ?_
      rw [List.drop_of_length_le (Nat.le_of_lt hshort)] at hc
      cases hc
    · exact .inl (by rw [List.length_nil] at hmost; omega)

/-- A number of at least one digit begins with one. -/
theorem IsNumeral.exists_cons {most n : Nat} {ds : Text} (h : IsNumeral 1 most ds n) :
    ∃ c more, ds = c :: more ∧ c.isDigit := by
  cases ds with
  | nil => exact absurd h.least_le (by decide)
  | cons c more => exact ⟨c, more, rfl, h.digits c List.mem_cons_self⟩

/-- Of a number of any size nothing is left out. -/
theorem IsNumeral.self {least most n : Nat} {ds : Text} (h : IsNumeral least most ds n) :
    IsNumeral least ds.length ds n := ⟨h.least_le, Nat.le_refl _, h.digits, h.value⟩

/-! ### Numbers behind blanks -/

/-- Blanks are passed over. -/
theorem trimStart_blanks {bs : Text} {c : Char} (hbs : ∀ c ∈ bs, isBlank c) (hc : isBlank c = false)
    (rest : Text) : Text.trimStart isBlank (bs ++ c :: rest) = c :: rest := by
  rw [Text.trimStart, List.dropWhile_append_of_pos hbs, List.dropWhile_cons_of_neg (by simp [hc])]

/-- What is passed over is blanks. -/
theorem exists_blanks (s : Text) : ∃ bs, s = bs ++ Text.trimStart isBlank s ∧ ∀ c ∈ bs, isBlank c :=
  ⟨s.takeWhile isBlank, List.takeWhile_append_dropWhile.symm, List.all_eq_true.1 List.all_takeWhile⟩

/-- A number behind blanks is read as far as it goes. -/
theorem field?_append {bs ds rest : Text} {n : Nat} (hbs : ∀ c ∈ bs, isBlank c)
    (h : IsNumeral 1 2 ds n) (hend : ds.length = 2 ∨ EndsNumber rest) :
    field? 2 (bs ++ ds ++ rest) = some (n, rest) := by
  obtain ⟨c, more, rfl, hc⟩ := h.exists_cons
  rw [field?, List.append_assoc, List.cons_append, trimStart_blanks hbs (isBlank_of_isDigit hc),
    ← List.cons_append, digits?_numeral h hend]

/-- What is read as a number behind blanks is one. -/
theorem exists_of_field? {s rest : Text} {n : Nat} (h : field? 2 s = some (n, rest)) :
    ∃ bs ds, s = bs ++ ds ++ rest ∧ (∀ c ∈ bs, isBlank c) ∧ IsNumeral 1 2 ds n ∧
      (ds.length = 2 ∨ EndsNumber rest) := by
  obtain ⟨bs, hs, hbs⟩ := exists_blanks s
  obtain ⟨ds, hds, hnumeral, hend⟩ := exists_of_digits? h
  exact ⟨bs, ds, by rw [List.append_assoc, ← hds, ← hs], hbs, hnumeral, hend⟩

/-- A year is read in front of something else. -/
theorem year?_append {y rest : Text} {year : Int} (h : IsYear y year) (hend : EndsNumber rest) :
    year? (y ++ rest) = some (year, rest) := by
  have hsigned {ds : Text} {n : Nat} (h : IsNumeral 1 ds.length ds n) :
      digits? 1 (ds ++ rest).length (ds ++ rest) = some (n, rest) :=
    digits?_numeral ⟨h.least_le, by simp, h.digits, h.value⟩ (.inr hend)
  cases h with
  | @plain bs ds n hbs h =>
    have hread := digits?_numeral h (.inr hend)
    obtain ⟨c, more, rfl, hc⟩ := h.exists_cons
    have hsigns : c ≠ '-' ∧ c ≠ '+' := by
      refine ⟨?_, ?_⟩ <;>
        · rintro rfl
          exact absurd hc (by decide)
    rw [List.cons_append] at hread
    rw [List.append_assoc, List.cons_append, year?, trimStart_blanks hbs (isBlank_of_isDigit hc)]
    simp [hsigns, hread]
  | @plus bs ds n hbs h =>
    rw [List.append_assoc, List.cons_append, year?, trimStart_blanks hbs (by decide)]
    simp only [hsigned h, Option.map_some]
  | @minus bs ds n hbs h =>
    rw [List.append_assoc, List.cons_append, year?, trimStart_blanks hbs (by decide)]
    simp only [hsigned h, Option.map_some]

/-- What is read as a year is one. -/
theorem exists_of_year? {s rest : Text} {year : Int} (h : year? s = some (year, rest)) :
    ∃ y, s = y ++ rest ∧ IsYear y year := by
  obtain ⟨bs, hs, hbs⟩ := exists_blanks s
  unfold year? at h
  split at h
  · rename_i t ht
    obtain ⟨⟨n, rest⟩, hread, heq⟩ := Option.map_eq_some_iff.1 h
    obtain ⟨rfl, rfl⟩ := Prod.mk.inj heq
    obtain ⟨ds, rfl, hnumeral, -⟩ := exists_of_digits? hread
    exact ⟨bs ++ '-' :: ds, by rw [hs, ht]; simp, .minus hbs hnumeral.self⟩
  · rename_i t ht
    obtain ⟨⟨n, rest⟩, hread, heq⟩ := Option.map_eq_some_iff.1 h
    obtain ⟨rfl, rfl⟩ := Prod.mk.inj heq
    obtain ⟨ds, rfl, hnumeral, -⟩ := exists_of_digits? hread
    exact ⟨bs ++ '+' :: ds, by rw [hs, ht]; simp, .plus hbs hnumeral.self⟩
  · obtain ⟨⟨n, rest⟩, hread, heq⟩ := Option.map_eq_some_iff.1 h
    obtain ⟨rfl, rfl⟩ := Prod.mk.inj heq
    obtain ⟨ds, hds, hnumeral, -⟩ := exists_of_digits? hread
    exact ⟨bs ++ ds, by rw [hs, hds]; simp, .plain hbs hnumeral⟩

/-! ### Signs, fractions and offsets -/

/-- A sign is read where it stands. -/
theorem sign?_eq_some_iff {c : Char} {s rest : Text} : sign? c s = some rest ↔ s = c :: rest := by
  cases s with
  | nil => simp [sign?]
  | cons d s =>
    simp only [sign?, Option.ite_none_right_eq_some, Option.some.injEq, List.cons.injEq]
    exact and_congr_left fun _ => eq_comm

/-- A sign is read. -/
theorem sign?_cons (c : Char) (rest : Text) : sign? c (c :: rest) = some rest := sign?_eq_some_iff.2 rfl

/-- Three signs may stand between a date and a time. -/
theorem timeSign?_cons {c : Char} (hc : c = 'T' ∨ c = 't' ∨ c = ' ') (rest : Text) :
    timeSign? (c :: rest) = some rest := by
  rcases hc with rfl | rfl | rfl <;> rfl

/-- The sign between a date and a time is one of three. -/
theorem timeSign?_eq_some_iff {s rest : Text} :
    timeSign? s = some rest ↔ ∃ c, (c = 'T' ∨ c = 't' ∨ c = ' ') ∧ s = c :: rest := by
  constructor
  · intro h
    unfold timeSign? at h
    split at h
    · exact ⟨'T', .inl rfl, by rw [Option.some.inj h]⟩
    · exact ⟨'t', .inr (.inl rfl), by rw [Option.some.inj h]⟩
    · exact ⟨' ', .inr (.inr rfl), by rw [Option.some.inj h]⟩
    · cases h
  · rintro ⟨c, hc, rfl⟩
    exact timeSign?_cons hc rest

/-- The first nine digits of a fraction are its nanoseconds. -/
theorem decimal_nine {ds : Text} (h : ∀ c ∈ ds, c.isDigit) :
    decimal (ds.take 9 ++ List.replicate (9 - (ds.take 9).length) '0') =
      decimal ds * second / 10 ^ ds.length := by
  have hsecond : second = 10 ^ 9 := rfl
  rw [decimal_append_zeros, hsecond, List.length_take]
  rcases Nat.le_total ds.length 9 with hshort | hlong
  · have hnine : 10 ^ 9 = 10 ^ (9 - ds.length) * 10 ^ ds.length := by
      rw [← Nat.pow_add, Nat.sub_add_cancel hshort]
    rw [List.take_of_length_le hshort, Nat.min_eq_right hshort, hnine, ← Nat.mul_assoc,
      Nat.mul_div_cancel _ (Nat.pow_pos (by decide))]
  · have hless : decimal (ds.drop 9) < 10 ^ (ds.drop 9).length :=
      decimal_lt fun c hc => h c (List.mem_of_mem_drop hc)
    have hsplit := decimal_append (ds.take 9) (ds.drop 9)
    have hlength : 10 ^ ds.length = 10 ^ (ds.drop 9).length * 10 ^ 9 := by
      rw [List.length_drop, ← Nat.pow_add, Nat.sub_add_cancel hlong]
    rw [List.take_append_drop] at hsplit
    rw [Nat.min_eq_left hlong, Nat.sub_self, Nat.pow_zero, Nat.mul_one, hlength,
      Nat.mul_div_mul_right _ _ (by decide), hsplit, Nat.add_comm, Nat.mul_comm,
      Nat.add_mul_div_left _ _ (Nat.pow_pos (by decide)), Nat.div_eq_of_lt hless, Nat.zero_add]

/-- Of digits in front of something else the first nine are taken. -/
theorem takeWhile_take_nine {ds rest : Text} (h : ∀ c ∈ ds, c.isDigit) (hend : EndsNumber rest) :
    ((ds ++ rest).take 9).takeWhile Char.isDigit = ds.take 9 := by
  rcases Nat.le_total ds.length 9 with hshort | hlong
  · rw [takeWhile_take_append h hshort (.inr hend), List.take_of_length_le hshort]
  · rw [List.take_append_of_le_length hlong, List.takeWhile_eq_self_iff]
    exact fun c hc => h c (List.mem_of_mem_take hc)

/-- A fraction is read in front of something else. -/
theorem fraction?_append {f rest : Text} {nanos : Nat} (h : IsFraction f nanos)
    (hpoint : rest.head? ≠ some '.') (hend : EndsNumber rest) :
    fraction? (f ++ rest) = some (nanos, rest) := by
  cases h with
  | absent =>
    unfold fraction?
    split
    · rename_i t hrest
      exact absurd (congrArg List.head? hrest) hpoint
    · rfl
  | @point ds n h =>
    have hne : (ds.take 9).isEmpty = false := by
      obtain ⟨c, more, rfl, -⟩ := h.exists_cons
      rfl
    have hdrop : (ds ++ rest).dropWhile Char.isDigit = rest := by
      rw [List.dropWhile_append_of_pos h.digits]
      cases rest with
      | nil => rfl
      | cons c rest => rw [List.dropWhile_cons_of_neg (by simp [hend c rfl])]
    simp only [List.cons_append, fraction?, takeWhile_take_nine h.digits hend, hne, hdrop,
      decimal_nine h.digits, h.value, Bool.false_eq_true, if_false]

/-- What is read as a fraction is one. -/
theorem exists_of_fraction? {s rest : Text} {nanos : Nat} (h : fraction? s = some (nanos, rest)) :
    ∃ f, s = f ++ rest ∧ IsFraction f nanos := by
  unfold fraction? at h
  split at h
  · rename_i t
    have hdigits : ∀ c ∈ t.takeWhile Char.isDigit, c.isDigit := List.all_eq_true.1 List.all_takeWhile
    have hsplit : t.takeWhile Char.isDigit ++ t.dropWhile Char.isDigit = t :=
      List.takeWhile_append_dropWhile
    have hend : EndsNumber (t.dropWhile Char.isDigit) := fun c hc => by
      have hnot := List.head?_dropWhile_not Char.isDigit t
      rw [hc] at hnot
      simpa using hnot
    have hnine := takeWhile_take_nine hdigits hend
    rw [hsplit] at hnine
    dsimp only at h
    rw [hnine] at h
    simp only [Option.ite_none_left_eq_some, Option.some.injEq, Prod.mk.injEq] at h
    obtain ⟨hne, rfl, rfl⟩ := h
    have hlength : 1 ≤ (t.takeWhile Char.isDigit).length := by
      rw [Nat.one_le_iff_ne_zero, ne_eq, List.length_eq_zero_iff]
      rintro hnil
      rw [hnil] at hne
      exact hne rfl
    refine ⟨'.' :: t.takeWhile Char.isDigit, by rw [List.cons_append, hsplit], ?_⟩
    rw [decimal_nine hdigits]
    exact .point ⟨hlength, Nat.le_refl _, hdigits, rfl⟩
  · obtain ⟨rfl, rfl⟩ := Prod.mk.inj (Option.some.inj h)
    exact ⟨[], rfl, .absent⟩

/-- An offset is read in front of anything. -/
theorem offset?_append {z : Text} {offset : Int} (h : IsZone z offset) (rest : Text) :
    offset? (sign? ':') (z ++ rest) = some (offset, rest) := by
  cases h with
  | utc hc =>
    rcases hc with rfl | rfl
    · rfl
    · rfl
  | ahead hhs hms hhours hminutes =>
    simp [offset?, digits?_exact hhs, digits?_exact hms, sign?_cons, hhours, hminutes]
  | behind hc hhs hms hhours hminutes =>
    rcases hc with rfl | rfl
    · simp [offset?, digits?_exact hhs, digits?_exact hms, sign?_cons, hhours, hminutes]
    · simp [offset?, digits?_exact hhs, digits?_exact hms, sign?_cons, hhours, hminutes]

/-- What is read as an offset is one. -/
theorem exists_of_offset? {s rest : Text} {offset : Int}
    (h : offset? (sign? ':') s = some (offset, rest)) : ∃ z, s = z ++ rest ∧ IsZone z offset := by
  unfold offset? at h
  split at h
  · obtain ⟨rfl, rfl⟩ := Prod.mk.inj (Option.some.inj h)
    exact ⟨['Z'], rfl, .utc (.inl rfl)⟩
  · obtain ⟨rfl, rfl⟩ := Prod.mk.inj (Option.some.inj h)
    exact ⟨['z'], rfl, .utc (.inr rfl)⟩
  · rename_i c t _ _
    rw [Option.ite_none_right_eq_some] at h
    obtain ⟨hc, h⟩ := h
    obtain ⟨⟨hours, t₁⟩, hhours, h⟩ := Option.bind_eq_some_iff.1 h
    obtain ⟨t₂, hcolon, h⟩ := Option.bind_eq_some_iff.1 h
    obtain ⟨⟨minutes, t₃⟩, hminutes, h⟩ := Option.bind_eq_some_iff.1 h
    simp only [Option.ite_none_right_eq_some, Bool.and_eq_true, decide_eq_true_eq, Option.some.injEq,
      Prod.mk.injEq] at h
    obtain ⟨⟨hminutes_lt, hhours_lt⟩, rfl, rfl⟩ := h
    obtain ⟨hs, rfl, hhs, -⟩ := exists_of_digits? hhours
    obtain rfl := sign?_eq_some_iff.1 hcolon
    obtain ⟨ms, rfl, hms, -⟩ := exists_of_digits? hminutes
    refine ⟨c :: (hs ++ ':' :: ms), by simp, ?_⟩
    simp only [Bool.or_eq_true, decide_eq_true_eq] at hc
    split
    · rename_i hplus
      subst hplus
      exact .ahead hhs hms hhours_lt hminutes_lt
    · rename_i hplus
      exact .behind (by tauto) hhs hms hhours_lt hminutes_lt
  · cases h

/-! ### Dates and times -/

/-- A date and a time of day. -/
structure CivilTime where
  /-- the date -/
  date : Date
  /-- the hour -/
  hour : Nat
  /-- the minute -/
  minute : Nat
  /-- the second; 60 is a leap second -/
  sec : Nat
  /-- the part of the second in nanoseconds -/
  nanos : Nat
  /-- how many seconds the time is ahead of universal time -/
  offset : Int

/-- A date in front of a text: year, month and day with minus signs between them. A day of one digit has no
other digit behind it. -/
inductive IsDate (rest : Text) : Text → Date → Prop
  /-- the three numbers -/
  | mk {y m bs ds : Text} {year : Int} {month day : Nat} : IsYear y year → IsField m month →
      (∀ c ∈ bs, isBlank c) → IsNumeral 1 2 ds day → (ds.length = 2 ∨ EndsNumber rest) →
      IsDate rest (y ++ '-' :: (m ++ '-' :: (bs ++ ds))) ⟨year, month, day⟩

/-- The strict form: each number has exactly so many digits, and an offset is told. -/
inductive IsStrict : Text → CivilTime → Prop
  /-- the parts -/
  | mk {y m d h i s f z : Text} {c : Char} {year month day hour minute sec nanos : Nat} {offset : Int} :
      IsNumeral 4 4 y year → IsNumeral 2 2 m month → IsNumeral 2 2 d day →
      (c = 'T' ∨ c = 't' ∨ c = ' ') → IsNumeral 2 2 h hour → IsNumeral 2 2 i minute →
      IsNumeral 2 2 s sec → IsFraction f nanos → IsZone z offset →
      IsStrict (y ++ '-' :: (m ++ '-' :: (d ++ c :: (h ++ ':' :: (i ++ ':' :: (s ++ (f ++ z)))))))
        ⟨⟨year, month, day⟩, hour, minute, sec, nanos, offset⟩

/-- A date and a time of universal time in whole seconds. -/
inductive IsDateTime : Text → CivilTime → Prop
  /-- the parts -/
  | mk {x h i s : Text} {date : Date} {hour minute sec : Nat} :
      IsDate (h ++ ':' :: (i ++ ':' :: s)) x date → IsField h hour → IsField i minute → IsField s sec →
      IsDateTime (x ++ (h ++ ':' :: (i ++ ':' :: s))) ⟨date, hour, minute, sec, 0, 0⟩

/-- The three forms of a bound. -/
inductive IsWritten : Text → CivilTime → Prop
  /-- the strict form -/
  | strict {s : Text} {c : CivilTime} : IsStrict s c → IsWritten s c
  /-- a date and a time -/
  | dateTime {s : Text} {c : CivilTime} : IsDateTime s c → IsWritten s c
  /-- a date, which stands for its first instant in universal time -/
  | date {s : Text} {d : Date} : IsDate [] s d → IsWritten s ⟨d, 0, 0, 0, 0, 0⟩

/-- A minus sign ends a number. -/
theorem endsNumber_minus (rest : Text) : EndsNumber ('-' :: rest) := (endsNumber_cons rest).2 rfl

/-- A colon ends a number. -/
theorem endsNumber_colon (rest : Text) : EndsNumber (':' :: rest) := (endsNumber_cons rest).2 rfl

/-- The end of a text ends a number. -/
theorem endsNumber_nil : EndsNumber [] := by simp [EndsNumber]

/-- A number behind blanks is read in front of something else. -/
theorem IsField.field? {f rest : Text} {n : Nat} (h : IsField f n) (hend : EndsNumber rest) :
    Instant.field? 2 (f ++ rest) = some (n, rest) := by
  obtain ⟨hbs, h⟩ := h
  exact field?_append hbs h (.inr hend)

/-- Dates are read up to the digits of their day. -/
theorem date?_eq_some_iff {s rest : Text} {d : Date} :
    date? s = some (d, rest) ↔ ∃ x, s = x ++ rest ∧ IsDate rest x d := by
  constructor
  · intro h
    obtain ⟨⟨year, s₁⟩, ryear, h⟩ := Option.bind_eq_some_iff.1 h
    obtain ⟨s₂, hsign, h⟩ := Option.bind_eq_some_iff.1 h
    obtain ⟨⟨month, s₃⟩, rmonth, h⟩ := Option.bind_eq_some_iff.1 h
    obtain ⟨s₄, hsign', h⟩ := Option.bind_eq_some_iff.1 h
    obtain ⟨⟨day, s₅⟩, rday, h⟩ := Option.bind_eq_some_iff.1 h
    obtain ⟨rfl, rfl⟩ := Prod.mk.inj (Option.some.inj h)
    obtain ⟨y, rfl, hyear⟩ := exists_of_year? ryear
    obtain rfl := sign?_eq_some_iff.1 hsign
    obtain ⟨bs, ds, rfl, hbs, hmonth, -⟩ := exists_of_field? rmonth
    obtain rfl := sign?_eq_some_iff.1 hsign'
    obtain ⟨bs', ds', rfl, hbs', hday, hend⟩ := exists_of_field? rday
    exact ⟨_, by simp, .mk hyear (.mk hbs hmonth) hbs' hday hend⟩
  · rintro ⟨_, rfl, ⟨hyear, hmonth, hbs, hday, hend⟩⟩
    have hlast := field?_append hbs hday hend
    rw [List.append_assoc] at hlast
    simp only [date?, List.append_assoc, List.cons_append, year?_append hyear (endsNumber_minus _),
      hmonth.field? (endsNumber_minus _), sign?_cons, hlast, Option.bind_eq_bind, Option.bind_some]

/-- An offset is neither a fraction nor a digit. -/
theorem IsZone.head? {z : Text} {offset : Int} (h : IsZone z offset) :
    z.head? ≠ some '.' ∧ EndsNumber z := by
  cases h with
  | utc hc => rcases hc with rfl | rfl <;> exact ⟨by simp, (endsNumber_cons _).2 rfl⟩
  | ahead => exact ⟨by simp, (endsNumber_cons _).2 rfl⟩
  | behind hc => rcases hc with rfl | rfl <;> exact ⟨by simp, (endsNumber_cons _).2 rfl⟩

/-- An offset is less than a day. -/
theorem IsZone.bounds {z : Text} {offset : Int} (h : IsZone z offset) :
    -86400 < offset ∧ offset < 86400 := by
  cases h with
  | utc => decide
  | ahead => omega
  | behind => omega

/-- The instant that is found for a date and a time. -/
def CivilTime.instant? (c : CivilTime) : Option Instant :=
  ofCivil? c.date c.hour c.minute c.sec c.nanos c.offset

/-- **The strict form** is read as it is written. -/
theorem readStrict?_eq_some_iff {s : Text} {t : Instant} :
    readStrict? s = some t ↔ ∃ c, IsStrict s c ∧ c.instant? = some t := by
  constructor
  · intro h
    obtain ⟨⟨year, s₁⟩, ryear, h⟩ := Option.bind_eq_some_iff.1 h
    obtain ⟨s₂, hsign₁, h⟩ := Option.bind_eq_some_iff.1 h
    obtain ⟨⟨month, s₃⟩, rmonth, h⟩ := Option.bind_eq_some_iff.1 h
    obtain ⟨s₄, hsign₂, h⟩ := Option.bind_eq_some_iff.1 h
    obtain ⟨⟨day, s₅⟩, rday, h⟩ := Option.bind_eq_some_iff.1 h
    obtain ⟨s₆, hsign₃, h⟩ := Option.bind_eq_some_iff.1 h
    obtain ⟨⟨hour, s₇⟩, rhour, h⟩ := Option.bind_eq_some_iff.1 h
    obtain ⟨s₈, hsign₄, h⟩ := Option.bind_eq_some_iff.1 h
    obtain ⟨⟨minute, s₉⟩, rminute, h⟩ := Option.bind_eq_some_iff.1 h
    obtain ⟨s₁₀, hsign₅, h⟩ := Option.bind_eq_some_iff.1 h
    obtain ⟨⟨sec, s₁₁⟩, rsec, h⟩ := Option.bind_eq_some_iff.1 h
    obtain ⟨⟨nanos, s₁₂⟩, rnanos, h⟩ := Option.bind_eq_some_iff.1 h
    obtain ⟨⟨offset, s₁₃⟩, roffset, h⟩ := Option.bind_eq_some_iff.1 h
    obtain ⟨hempty, ht⟩ := Option.ite_none_right_eq_some.1 h
    obtain rfl := List.isEmpty_iff.1 hempty
    obtain ⟨y, rfl, hyear, -⟩ := exists_of_digits? ryear
    obtain rfl := sign?_eq_some_iff.1 hsign₁
    obtain ⟨m, rfl, hmonth, -⟩ := exists_of_digits? rmonth
    obtain rfl := sign?_eq_some_iff.1 hsign₂
    obtain ⟨d, rfl, hday, -⟩ := exists_of_digits? rday
    obtain ⟨c, hc, rfl⟩ := timeSign?_eq_some_iff.1 hsign₃
    obtain ⟨hh, rfl, hhour, -⟩ := exists_of_digits? rhour
    obtain rfl := sign?_eq_some_iff.1 hsign₄
    obtain ⟨i, rfl, hminute, -⟩ := exists_of_digits? rminute
    obtain rfl := sign?_eq_some_iff.1 hsign₅
    obtain ⟨ss, rfl, hsec, -⟩ := exists_of_digits? rsec
    obtain ⟨f, rfl, hnanos⟩ := exists_of_fraction? rnanos
    obtain ⟨z, rfl, hoffset⟩ := exists_of_offset? roffset
    rw [List.append_nil]
    exact ⟨_, .mk hyear hmonth hday hc hhour hminute hsec hnanos hoffset, ht⟩
  · rintro ⟨_, ⟨hyear, hmonth, hday, hc, hhour, hminute, hsec, hnanos, hoffset⟩, ht⟩
    have hfraction := fraction?_append hnanos hoffset.head?.1 hoffset.head?.2
    have hzone := offset?_append hoffset []
    rw [List.append_nil] at hzone
    refine Option.bind_eq_some_iff.2 ⟨_, digits?_exact hyear _, ?_⟩
    refine Option.bind_eq_some_iff.2 ⟨_, sign?_cons _ _, ?_⟩
    refine Option.bind_eq_some_iff.2 ⟨_, digits?_exact hmonth _, ?_⟩
    refine Option.bind_eq_some_iff.2 ⟨_, sign?_cons _ _, ?_⟩
    refine Option.bind_eq_some_iff.2 ⟨_, digits?_exact hday _, ?_⟩
    refine Option.bind_eq_some_iff.2 ⟨_, timeSign?_cons hc _, ?_⟩
    refine Option.bind_eq_some_iff.2 ⟨_, digits?_exact hhour _, ?_⟩
    refine Option.bind_eq_some_iff.2 ⟨_, sign?_cons _ _, ?_⟩
    refine Option.bind_eq_some_iff.2 ⟨_, digits?_exact hminute _, ?_⟩
    refine Option.bind_eq_some_iff.2 ⟨_, sign?_cons _ _, ?_⟩
    refine Option.bind_eq_some_iff.2 ⟨_, digits?_exact hsec _, ?_⟩
    refine Option.bind_eq_some_iff.2 ⟨_, hfraction, ?_⟩
    exact Option.bind_eq_some_iff.2 ⟨_, hzone, ht⟩

/-- **Dates and times** are read as they are written. -/
theorem readDateTime?_eq_some_iff {s : Text} {t : Instant} :
    readDateTime? s = some t ↔ ∃ c, IsDateTime s c ∧ c.instant? = some t := by
  constructor
  · intro h
    obtain ⟨⟨date, s₁⟩, rdate, h⟩ := Option.bind_eq_some_iff.1 h
    obtain ⟨⟨hour, s₂⟩, rhour, h⟩ := Option.bind_eq_some_iff.1 h
    obtain ⟨s₃, hsign₁, h⟩ := Option.bind_eq_some_iff.1 h
    obtain ⟨⟨minute, s₄⟩, rminute, h⟩ := Option.bind_eq_some_iff.1 h
    obtain ⟨s₅, hsign₂, h⟩ := Option.bind_eq_some_iff.1 h
    obtain ⟨⟨sec, s₆⟩, rsec, h⟩ := Option.bind_eq_some_iff.1 h
    obtain ⟨hempty, ht⟩ := Option.ite_none_right_eq_some.1 h
    obtain rfl := List.isEmpty_iff.1 hempty
    obtain ⟨bs₁, ds₁, rfl, hbs₁, hhour, -⟩ := exists_of_field? rhour
    obtain rfl := sign?_eq_some_iff.1 hsign₁
    obtain ⟨bs₂, ds₂, rfl, hbs₂, hminute, -⟩ := exists_of_field? rminute
    obtain rfl := sign?_eq_some_iff.1 hsign₂
    obtain ⟨bs₃, ds₃, rfl, hbs₃, hsec, -⟩ := exists_of_field? rsec
    obtain ⟨x, rfl, hdate⟩ := date?_eq_some_iff.1 rdate
    rw [List.append_nil] at hdate ⊢
    exact ⟨_, .mk hdate (.mk hbs₁ hhour) (.mk hbs₂ hminute) (.mk hbs₃ hsec), ht⟩
  · rintro ⟨_, ⟨hdate, hhour, hminute, hsec⟩, ht⟩
    have hfirst := date?_eq_some_iff.2 ⟨_, rfl, hdate⟩
    have hlast := hsec.field? endsNumber_nil
    rw [List.append_nil] at hlast
    simp only [readDateTime?, hfirst, hhour.field? (endsNumber_colon _),
      hminute.field? (endsNumber_colon _), hlast, sign?_cons, Option.bind_eq_bind, Option.bind_some,
      List.isEmpty_nil, if_true]
    exact ht

/-- **Dates** are read as they are written. -/
theorem readDate?_eq_some_iff {s : Text} {t : Instant} :
    readDate? s = some t ↔ ∃ d, IsDate [] s d ∧ CivilTime.instant? ⟨d, 0, 0, 0, 0, 0⟩ = some t := by
  constructor
  · intro h
    obtain ⟨⟨date, s₁⟩, rdate, h⟩ := Option.bind_eq_some_iff.1 h
    obtain ⟨hempty, ht⟩ := Option.ite_none_right_eq_some.1 h
    obtain rfl := List.isEmpty_iff.1 hempty
    obtain ⟨x, rfl, hdate⟩ := date?_eq_some_iff.1 rdate
    rw [List.append_nil]
    exact ⟨date, hdate, ht⟩
  · rintro ⟨d, hdate, ht⟩
    have hread := date?_eq_some_iff.2 ⟨s, (List.append_nil s).symm, hdate⟩
    simp only [readDate?, hread, Option.bind_eq_bind, Option.bind_some, List.isEmpty_nil, if_true]
    exact ht

/-! ### No text has two forms -/

/-- A sign of a time of day: a colon, or the `Z` of universal time. -/
def isClockSign (c : Char) : Bool := c == ':' || c == 'Z' || c == 'z'

/-- Neither blanks nor digits are such signs. -/
theorem isClockSign_eq_false {c : Char} (h : isBlank c ∨ c.isDigit) : isClockSign c = false := by
  rw [Bool.eq_false_iff]
  intro hsign
  simp only [isClockSign, Bool.or_eq_true, beq_iff_eq] at hsign
  rcases hsign with (rfl | rfl) | rfl
  all_goals exact absurd h (by decide)

/-- There are none among blanks and digits. -/
theorem countP_eq_zero {s : Text} (h : ∀ c ∈ s, isBlank c ∨ c.isDigit) : s.countP isClockSign = 0 :=
  List.countP_eq_zero.2 fun c hc => by simp [isClockSign_eq_false (h c hc)]

/-- There are none in a number. -/
theorem IsNumeral.countP {least most n : Nat} {ds : Text} (h : IsNumeral least most ds n) :
    ds.countP isClockSign = 0 := countP_eq_zero fun c hc => .inr (h.digits c hc)

/-- There are none in a number behind blanks. -/
theorem IsField.countP {f : Text} {n : Nat} (h : IsField f n) : f.countP isClockSign = 0 := by
  obtain ⟨hbs, h⟩ := h
  rw [List.countP_append, countP_eq_zero fun c hc => .inl (hbs c hc), h.countP]

/-- There are none in a year. -/
theorem IsYear.countP {y : Text} {year : Int} (h : IsYear y year) : y.countP isClockSign = 0 := by
  have hblanks {bs : Text} (hbs : ∀ c ∈ bs, isBlank c) : bs.countP isClockSign = 0 :=
    countP_eq_zero fun c hc => .inl (hbs c hc)
  cases h with
  | plain hbs h => rw [List.countP_append, hblanks hbs, h.countP]
  | plus hbs h => rw [List.countP_append, List.countP_cons, hblanks hbs, h.countP]; rfl
  | minus hbs h => rw [List.countP_append, List.countP_cons, hblanks hbs, h.countP]; rfl

/-- There are none in a date. -/
theorem IsDate.countP {rest x : Text} {d : Date} (h : IsDate rest x d) : x.countP isClockSign = 0 := by
  obtain ⟨hyear, hmonth, hbs, hday, -⟩ := h
  have hminus : isClockSign '-' = false := rfl
  simp [List.countP_append, hyear.countP, hmonth.countP, hday.countP, hminus,
    countP_eq_zero fun c hc => .inl (hbs c hc)]

/-- There are none in a fraction. -/
theorem IsFraction.countP {f : Text} {nanos : Nat} (h : IsFraction f nanos) :
    f.countP isClockSign = 0 := by
  cases h with
  | absent => rfl
  | point h => rw [List.countP_cons, h.countP]; rfl

/-- There is one in an offset. -/
theorem IsZone.countP {z : Text} {offset : Int} (h : IsZone z offset) : z.countP isClockSign = 1 := by
  have hcolon : isClockSign ':' = true := rfl
  cases h with
  | utc hc => rcases hc with rfl | rfl <;> rfl
  | ahead hhs hms =>
    have hplus : isClockSign '+' = false := rfl
    simp [List.countP_append, hhs.countP, hms.countP, hcolon, hplus]
  | @behind c _ _ _ _ hc hhs hms =>
    have hminus : isClockSign c = false := by rcases hc with rfl | rfl <;> rfl
    simp [List.countP_append, hhs.countP, hms.countP, hcolon, hminus]

/-- There are three in a text of the strict form. -/
theorem IsStrict.countP {s : Text} {c : CivilTime} (h : IsStrict s c) : s.countP isClockSign = 3 := by
  obtain ⟨hyear, hmonth, hday, hc, hhour, hminute, hsec, hnanos, hoffset⟩ := h
  have hminus : isClockSign '-' = false := rfl
  have hcolon : isClockSign ':' = true := rfl
  have hbetween {c : Char} (hc : c = 'T' ∨ c = 't' ∨ c = ' ') : isClockSign c = false := by
    rcases hc with rfl | rfl | rfl <;> rfl
  simp [List.countP_append, hyear.countP, hmonth.countP, hday.countP, hhour.countP,
    hminute.countP, hsec.countP, hnanos.countP, hoffset.countP, hminus, hcolon, hbetween hc]

/-- There are two in a date and a time of universal time. -/
theorem IsDateTime.countP {s : Text} {c : CivilTime} (h : IsDateTime s c) :
    s.countP isClockSign = 2 := by
  obtain ⟨hdate, hhour, hminute, hsec⟩ := h
  have hcolon : isClockSign ':' = true := rfl
  simp [List.countP_append, hdate.countP, hhour.countP, hminute.countP, hsec.countP,
    hcolon]

/-! ### The instants of dates and times -/

/-- The instant of a date and a time, if there is one: the seconds of its days, counted from 1970-01-01,
and of its time of day, less what it is ahead of universal time. A leap second is behind second 59. -/
inductive CivilTime.Denotes (c : CivilTime) : Instant → Prop
  /-- the date is on the calendar, and its year and the time of day are within bounds -/
  | mk {day : Int} : c.date.HasNumber day → firstYear ≤ c.date.year → c.date.year ≤ lastYear →
      c.hour < 24 → c.minute < 60 → c.sec ≤ 60 →
      c.Denotes ⟨day * 86400 + (c.hour * 3600 + c.minute * 60 + min c.sec 59 : Nat) - c.offset,
        c.nanos + if c.sec = 60 then second else 0⟩

/-- **The instant that is found** is that of the date and the time, as far as the offset does not move it
out of the bounds on years. -/
theorem CivilTime.instant?_eq_some_iff {c : CivilTime} {t : Instant} (h : c.offset = 0 ∨
    0 ≤ c.date.year ∧ c.date.year ≤ 9999 ∧ -86400 < c.offset ∧ c.offset < 86400) :
    c.instant? = some t ↔ c.Denotes t := by
  -- the year of the instant is within bounds by itself
  have hrange (hvalid : c.date.isValid) (hfirst : firstYear ≤ c.date.year)
      (hlast : c.date.year ≤ lastYear) (hhour : c.hour < 24) (hminute : c.minute < 60) :
      Instant.isInRange ⟨c.date.toDay * 86400 +
        (c.hour * 3600 + c.minute * 60 + min c.sec 59 : Nat) - c.offset,
          c.nanos + if c.sec = 60 then second else 0⟩ := by
    obtain ⟨hbegin, hend⟩ := Date.toDay_lt_yearStart hvalid
    rw [isInRange_iff]
    dsimp only
    rcases h with hzero | ⟨hyear, hyear', hoffset, hoffset'⟩
    · have hlow := Date.yearStart_mono hfirst
      have hhigh := Date.yearStart_mono (show c.date.year + 1 ≤ lastYear + 1 by omega)
      omega
    · have hlow := Date.yearStart_mono hyear
      have hhigh := Date.yearStart_mono (show c.date.year + 1 ≤ 10000 by omega)
      have hfar : Date.yearStart firstYear + 1 ≤ Date.yearStart 0 := by decide
      have hfar' : Date.yearStart 10000 + 1 ≤ Date.yearStart (lastYear + 1) := by decide
      omega
  simp only [instant?, ofCivil?, Option.ite_none_right_eq_some, Bool.and_eq_true, decide_eq_true_eq,
    Option.some.injEq]
  constructor
  · rintro ⟨⟨⟨⟨⟨⟨hvalid, hfirst⟩, hlast⟩, hhour⟩, hminute⟩, hsec⟩, -, rfl⟩
    exact .mk (Date.hasNumber_toDay hvalid rfl) hfirst hlast hhour hminute hsec
  · rintro ⟨hday, hfirst, hlast, hhour, hminute, hsec⟩
    obtain ⟨hvalid, rfl⟩ := Date.hasNumber_iff.1 hday
    exact ⟨⟨⟨⟨⟨⟨hvalid, hfirst⟩, hlast⟩, hhour⟩, hminute⟩, hsec⟩,
      hrange hvalid hfirst hlast hhour hminute, rfl⟩

/-- The year of the strict form has four digits, and its offset is less than a day. -/
theorem IsStrict.bounds {s : Text} {c : CivilTime} (h : IsStrict s c) :
    0 ≤ c.date.year ∧ c.date.year ≤ 9999 ∧ -86400 < c.offset ∧ c.offset < 86400 := by
  obtain ⟨hyear, -, -, -, -, -, -, -, hoffset⟩ := h
  have hless := decimal_lt hyear.digits
  rw [hyear.value, Nat.le_antisymm hyear.le_most hyear.least_le] at hless
  have hday := hoffset.bounds
  dsimp only
  omega

/-! ### The bounds of rules -/

/-- Whether a stored text denotes an instant: it is written in one of the three forms, with white space
around it, and the instant is behind the placeholders. -/
def DenotesBound (raw : Text) (t : Instant) : Prop :=
  (∃ c, IsWritten (Text.trim raw) c ∧ c.Denotes t) ∧ lastPlaceholder.lt t

/-- **Bounds are read as they are written.** -/
theorem readStored?_eq_some_iff {raw : Text} {t : Instant} :
    readStored? raw = some t ↔ DenotesBound raw t := by
  rw [readStored?, DenotesBound, Option.filter_eq_some_iff]
  refine and_congr_left fun _ => ?_
  generalize Text.trim raw = s
  constructor
  · intro h
    rcases Option.or_eq_some_iff.1 h with h | ⟨-, h⟩
    · obtain ⟨c, hc, ht⟩ := readStrict?_eq_some_iff.1 h
      exact ⟨c, .strict hc, (CivilTime.instant?_eq_some_iff (.inr hc.bounds)).1 ht⟩
    rcases Option.or_eq_some_iff.1 h with h | ⟨-, h⟩
    · obtain ⟨_, ⟨hdate, hhour, hminute, hsec⟩, ht⟩ := readDateTime?_eq_some_iff.1 h
      exact ⟨_, .dateTime ⟨hdate, hhour, hminute, hsec⟩,
        (CivilTime.instant?_eq_some_iff (.inl rfl)).1 ht⟩
    · obtain ⟨d, hdate, ht⟩ := readDate?_eq_some_iff.1 h
      exact ⟨_, .date hdate, (CivilTime.instant?_eq_some_iff (.inl rfl)).1 ht⟩
  · -- a text of one form is passed over by the readers of the others
    have hstrict (h : s.countP isClockSign ≠ 3) : readStrict? s = none := by
      rw [Option.eq_none_iff_forall_ne_some]
      intro t ht
      obtain ⟨c, hc, -⟩ := readStrict?_eq_some_iff.1 ht
      exact h hc.countP
    have hdateTime (h : s.countP isClockSign ≠ 2) : readDateTime? s = none := by
      rw [Option.eq_none_iff_forall_ne_some]
      intro t ht
      obtain ⟨c, hc, -⟩ := readDateTime?_eq_some_iff.1 ht
      exact h hc.countP
    rintro ⟨c, hc, ht⟩
    cases hc with
    | strict hc =>
      have hread := readStrict?_eq_some_iff.2
        ⟨c, hc, (CivilTime.instant?_eq_some_iff (.inr hc.bounds)).2 ht⟩
      rw [hread, Option.some_or]
    | dateTime hc =>
      have hzero : c.offset = 0 := by
        obtain ⟨-, -, -, -⟩ := hc
        rfl
      have hread := readDateTime?_eq_some_iff.2
        ⟨c, hc, (CivilTime.instant?_eq_some_iff (.inl hzero)).2 ht⟩
      rw [hstrict (by rw [hc.countP]; decide), Option.none_or, hread, Option.some_or]
    | date hd =>
      have hread := readDate?_eq_some_iff.2
        ⟨_, hd, (CivilTime.instant?_eq_some_iff (.inl rfl)).2 ht⟩
      rw [hstrict (by rw [hd.countP]; decide), Option.none_or,
        hdateTime (by rw [hd.countP]; decide), Option.none_or, hread]

end Instant

end Detour
