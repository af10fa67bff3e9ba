import Detour.Proofs.Calendar
import Mathlib.Algebra.Order.Ring.Int

/-!
# Counting days

The number of a date is the number of days that one has to go on, or back, from 1970-01-01 to come to
it, from each date to the next one on the calendar.

* `Date.next`: the date behind a date, and `Date.HasNumber`: the number that counting gives it.
* `Date.toDay_next`: the number of the next date is the next number.
* `Date.toDay_lt`: earlier dates have smaller numbers, so no two dates have the same one.
* `Date.hasNumber_iff`: dates on the calendar have the number that is computed for them, and others have none.
-/

namespace Detour

namespace Date

/-- The date behind a date: the next day of the month, the first of the next month, or the first of the
next year. -/
def next (d : Date) : Date :=
  if d.day < monthLength d.year d.month then ⟨d.year, d.month, d.day + 1⟩
  else if d.month < 12 then ⟨d.year, d.month + 1, 1⟩
  else ⟨d.year + 1, 1, 1⟩

/-- The number of a date, by counting from 1970-01-01 in either direction. -/
inductive HasNumber : Date → Int → Prop
  /-- 1970-01-01 has the number 0 -/
  | epoch : HasNumber ⟨1970, 1, 1⟩ 0
  /-- the next date has the next number -/
  | next {d : Date} {n : Int} : HasNumber d n → HasNumber d.next (n + 1)
  /-- the date before has the number before -/
  | previous {d : Date} {n : Int} : d.isValid → HasNumber d.next (n + 1) → HasNumber d n

/-- What it is to be on the calendar. -/
theorem isValid_iff {d : Date} : d.isValid ↔
    1 ≤ d.month ∧ d.month ≤ 12 ∧ 1 ≤ d.day ∧ d.day ≤ monthLength d.year d.month := by
  simp [isValid, and_assoc]

/-- A month begins as many days after the one before as that has days. -/
theorem monthStart_of_pos (year : Int) {month : Nat} (h : 1 ≤ month) :
    monthStart year month = monthStart year (month - 1) + monthLength year month := by
  obtain ⟨n, rfl⟩ := Nat.exists_eq_add_of_le' h
  rfl

/-- Later months begin later. -/
theorem monthStart_mono (year : Int) {a b : Nat} (h : a ≤ b) :
    monthStart year a ≤ monthStart year b := by
  induction h with
  | refl => exact Nat.le_refl _
  | step _ ih => exact Nat.le_trans ih (Nat.le_add_right _ _)

/-- No month is empty. -/
theorem monthLength_pos (year : Int) (month : Nat) : 1 ≤ monthLength year month := by
  unfold monthLength
  split
  · split <;> omega
  all_goals omega

/-! ### From one date to the next -/

/-- **The next date** is on the calendar and has the next number. -/
theorem toDay_next {d : Date} (h : d.isValid) : d.next.isValid ∧ d.next.toDay = d.toDay + 1 := by
  obtain ⟨year, month, day⟩ := d
  obtain ⟨hmonth, htwelve, hday, hlength⟩ := isValid_iff.1 h
  dsimp only at hmonth htwelve hday hlength
  have hbehind := monthStart_of_pos year hmonth
  simp only [next, isValid_iff]
  split
  · rename_i hmore
    dsimp only
    refine ⟨⟨hmonth, htwelve, by omega, hmore⟩, ?_⟩
    simp only [toDay]
    omega
  split
  · rename_i hlast hmore
    dsimp only
    refine ⟨⟨by omega, hmore, le_refl 1, monthLength_pos year _⟩, ?_⟩
    simp only [toDay, Nat.add_sub_cancel]
    omega
  · rename_i hlast hend
    obtain rfl : month = 12 := by omega
    dsimp only
    refine ⟨⟨le_refl 1, by decide, le_refl 1, monthLength_pos _ 1⟩, ?_⟩
    have hfirst : monthStart (year + 1) (1 - 1) = 0 := rfl
    have hlength := monthStart_twelve year
    have hnext := yearStart_succ year
    simp only [toDay, hfirst]
    split at hlength
    · rename_i hleap
      rw [if_pos hleap] at hnext
      omega
    · rename_i hleap
      rw [if_neg hleap] at hnext
      omega

/-! ### The order of dates -/

/-- Whether a date is before another one: in an earlier year, or in the same year in an earlier month, or in
the same month on an earlier day. -/
def Before (a b : Date) : Prop :=
  a.year < b.year ∨ a.year = b.year ∧ (a.month < b.month ∨ a.month = b.month ∧ a.day < b.day)

/-- A date lies in its month. -/
theorem toDay_bounds {d : Date} (h : d.isValid) :
    yearStart d.year + monthStart d.year (d.month - 1) ≤ d.toDay + origin ∧
      d.toDay + origin < yearStart d.year + monthStart d.year d.month := by
  obtain ⟨hmonth, -, hday, hlength⟩ := isValid_iff.1 h
  have hbehind := monthStart_of_pos d.year hmonth
  simp only [toDay]
  omega

/-- A date lies in its year. -/
theorem toDay_lt_yearStart {d : Date} (h : d.isValid) :
    yearStart d.year ≤ d.toDay + origin ∧ d.toDay + origin < yearStart (d.year + 1) := by
  obtain ⟨hfirst, hlast⟩ := toDay_bounds h
  obtain ⟨-, htwelve, -, -⟩ := isValid_iff.1 h
  have hend := monthStart_mono d.year htwelve
  rw [monthStart_twelve] at hend
  rw [yearStart_succ]
  split
  · rename_i hleap
    rw [if_pos hleap] at hend
    omega
  · rename_i hleap
    rw [if_neg hleap] at hend
    omega

/-- **Earlier dates have smaller numbers.** -/
theorem toDay_lt {a b : Date} (ha : a.isValid) (hb : b.isValid) (h : a.Before b) :
    a.toDay < b.toDay := by
  rcases h with hyear | ⟨hyear, hmonth | ⟨hmonth, hday⟩⟩
  · have hmono := yearStart_mono (show a.year + 1 ≤ b.year by omega)
    have hend := (toDay_lt_yearStart ha).2
    have hbegin := (toDay_lt_yearStart hb).1
    omega
  · have hmono := monthStart_mono b.year (show a.month ≤ b.month - 1 by omega)
    have hend := (toDay_bounds ha).2
    have hbegin := (toDay_bounds hb).1
    rw [hyear] at hend
    omega
  · simp only [toDay, hyear, hmonth]
    omega

/-- Two different dates are one before the other. -/
theorem before_or_eq (a b : Date) : a.Before b ∨ a = b ∨ b.Before a := by
  obtain ⟨year, month, day⟩ := a
  obtain ⟨year', month', day'⟩ := b
  simp only [Before, Date.mk.injEq]
  omega

/-- No two dates on the calendar have the same number. -/
theorem toDay_injective {a b : Date} (ha : a.isValid) (hb : b.isValid) (h : a.toDay = b.toDay) :
    a = b := by
  rcases before_or_eq a b with hbefore | heq | hbehind
  · exact absurd (toDay_lt ha hb hbefore) (by omega)
  · exact heq
  · exact absurd (toDay_lt hb ha hbehind) (by omega)

/-! ### Counting -/

/-- A date on the calendar is reached by counting. -/
theorem hasNumber_toDay {d : Date} {n : Int} (h : d.isValid) (hn : d.toDay = n) : d.HasNumber n := by
  induction n using Int.induction_on generalizing d with
  | zero =>
    have hepoch : d = ⟨1970, 1, 1⟩ := toDay_injective h (by decide) (hn.trans (by decide))
    exact hepoch ▸ .epoch
  | succ n ih =>
    obtain ⟨hvalid, hday, -⟩ := ofDay_spec n
    obtain ⟨hvalid', hday'⟩ := toDay_next hvalid
    have hnext : (ofDay n).next = d := toDay_injective hvalid' h (by omega)
    exact hnext ▸ .next (ih hvalid hday)
  | pred n ih =>
    obtain ⟨hvalid, hday⟩ := toDay_next h
    refine .previous h ?_
    rw [Int.sub_add_cancel]
    exact ih hvalid (by omega)

/-- **Counting days gives the computed numbers**: a date on the calendar has the number that is computed
for it, and no other date has a number. -/
theorem hasNumber_iff {d : Date} {n : Int} : d.HasNumber n ↔ d.isValid ∧ d.toDay = n := by
  refine ⟨fun h => ?_, fun ⟨hvalid, hn⟩ => hasNumber_toDay hvalid hn⟩
  induction h with
  | epoch => decide
  | next _ ih =>
    obtain ⟨hvalid, hday⟩ := toDay_next ih.1
    exact ⟨hvalid, by rw [hday, ih.2]⟩
  | previous hvalid _ ih =>
    have hday := (toDay_next hvalid).2
    exact ⟨hvalid, by omega⟩

end Date

end Detour
