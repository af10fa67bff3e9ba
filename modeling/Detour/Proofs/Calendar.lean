import Detour.Instant.Calendar

/-!
# Dates and their numbers

The date that is found for a number is on the calendar and has that number, in both directions of time.

* `Date.yearOf_spec`: the year that is found begins on or before the day, and the next one behind it.
* `Date.inYear_spec`: within a year, month and day are found by taking off the months before.
* `Date.ofDay_spec` puts both together.
-/

namespace Detour

namespace Date

/-- A year begins as many days after the one before as that has days. -/
theorem yearStart_succ (year : Int) :
    yearStart (year + 1) = yearStart year + if isLeap year then 366 else 365 := by
  simp only [yearStart]
  split
  · rename_i hleap
    simp only [isLeap, Bool.and_eq_true, Bool.or_eq_true, decide_eq_true_eq] at hleap
    omega
  · rename_i hleap
    simp only [isLeap, Bool.and_eq_true, Bool.or_eq_true, decide_eq_true_eq] at hleap
    omega

/-- Later years begin later. -/
theorem yearStart_mono {a b : Int} (h : a ≤ b) : yearStart a ≤ yearStart b := by
  simp only [yearStart]
  omega

/-- No month is longer than 31 days. -/
theorem monthLength_le (year : Int) (month : Nat) : monthLength year month ≤ 31 := by
  unfold monthLength
  split
  · split <;> omega
  all_goals omega

/-- The months of a year make up its days. -/
theorem monthStart_twelve (year : Int) : monthStart year 12 = if isLeap year then 366 else 365 := by
  simp only [monthStart, monthLength]
  split <;> rfl

/-- The month and the day that are found within a year are those of the day. -/
theorem inYear_spec {year : Int} {fuel month n : Nat} (hmonth : 1 ≤ month) (hfuel : month + fuel = 13)
    (hn : monthStart year (month - 1) + n < monthStart year 12) :
    ∃ m d, inYear year fuel month n = (m, d) ∧ 1 ≤ m ∧ m ≤ 12 ∧ 1 ≤ d ∧ d ≤ monthLength year m ∧
      monthStart year (m - 1) + d = monthStart year (month - 1) + n + 1 := by
  induction fuel generalizing month n with
  | zero =>
    obtain rfl : month = 13 := by omega
    exact absurd hn (Nat.not_lt.2 (Nat.le_add_right _ _))
  | succ fuel ih =>
    simp only [inYear]
    split
    · rename_i hsize
      exact ⟨month, n + 1, rfl, hmonth, by omega, by omega, by omega, by omega⟩
    · rename_i hsize
      have hnext : monthStart year month = monthStart year (month - 1) + monthLength year month := by
        obtain ⟨k, rfl⟩ := Nat.exists_eq_add_of_le' hmonth
        rfl
      obtain ⟨m, d, heq, hm, hm', hd, hd', hplace⟩ :=
        @ih (month + 1) (n - monthLength year month) (by omega) (by omega)
          (by rw [Nat.add_sub_cancel, hnext]; omega)
      refine ⟨m, d, heq, hm, hm', hd, hd', ?_⟩
      rw [hplace, Nat.add_sub_cancel, hnext]
      omega

/-- The year that is found for a day, counted from 0001-01-01, begins on or before the day, and the
next year behind it. -/
theorem yearOf_spec (n : Int) :
    let centuries := min (n % 146097 / 36524) 3
    let inCentury := n % 146097 - 36524 * centuries
    let years := min (inCentury % 1461 / 365) 3
    let year := 400 * (n / 146097) + 100 * centuries + 4 * (inCentury / 1461) + years + 1
    let inYear := inCentury % 1461 - 365 * years
    yearStart year + inYear = n ∧ 0 ≤ inYear ∧ inYear < if isLeap year then 366 else 365 := by
  intro centuries inCentury years year inYear
  have hcenturies : 0 ≤ centuries ∧ centuries ≤ 3 := by omega
  have hcentury : 0 ≤ inCentury ∧ inCentury ≤ 36524 ∧ (inCentury = 36524 → centuries = 3) := by omega
  have hfours : 0 ≤ inCentury / 1461 ∧ inCentury / 1461 ≤ 24 := by omega
  have hyears : 0 ≤ years ∧ years ≤ 3 := by omega
  have hinYear : 0 ≤ inYear ∧ inYear ≤ 365 ∧ (inYear = 365 → inCentury % 1461 = 1460) := by omega
  have hyear : year - 1 = 400 * (n / 146097) + 100 * centuries + 4 * (inCentury / 1461) + years := by
    omega
  refine ⟨?_, hinYear.1, ?_⟩
  · have hfourth : (year - 1) / 4 = 100 * (n / 146097) + 25 * centuries + inCentury / 1461 := by omega
    have hhundredth : (year - 1) / 100 = 4 * (n / 146097) + centuries := by omega
    have hlast : (year - 1) / 400 = n / 146097 := by omega
    simp only [yearStart]
    rw [hfourth, hhundredth, hlast]
    omega
  · -- the last day of four years is that of a leap year: a century that is not is a day shorter
    split
    · omega
    · rename_i hleap
      simp only [isLeap, Bool.and_eq_true, Bool.or_eq_true, decide_eq_true_eq] at hleap
      omega

/-- The date that is found for a number is on the calendar, has that number and lies in its year. -/
theorem ofDay_spec (n : Int) : (ofDay n).isValid ∧ (ofDay n).toDay = n ∧
    yearStart (ofDay n).year ≤ n + origin ∧ n + origin < yearStart ((ofDay n).year + 1) := by
  obtain ⟨year, day, hfound, hstart, hfirst, hlast⟩ : ∃ (year day : Int),
      ofDay n = ⟨year, (inYear year 12 1 day.toNat).1, (inYear year 12 1 day.toNat).2⟩ ∧
        yearStart year + day = n + origin ∧ 0 ≤ day ∧ day < if isLeap year then 366 else 365 :=
    ⟨_, _, rfl, yearOf_spec (n + origin)⟩
  have hin : monthStart year 0 + day.toNat < monthStart year 12 := by
    rw [monthStart_twelve, monthStart]
    by_cases hleap : isLeap year
    · rw [if_pos hleap] at hlast ⊢
      omega
    · rw [if_neg hleap] at hlast ⊢
      omega
  obtain ⟨m, d, heq, hm, hm', hd, hd', hplace⟩ :=
    @inYear_spec year 12 1 day.toNat (Nat.le_refl 1) rfl hin
  rw [hfound, heq]
  refine ⟨by simp [isValid, hm, hm', hd, hd'], ?_, ?_, ?_⟩
  · have hzero : monthStart year (1 - 1) = 0 := rfl
    rw [hzero] at hplace
    simp only [toDay]
    omega
  · change yearStart year ≤ n + origin
    omega
  · change n + origin < yearStart (year + 1)
    rw [yearStart_succ]
    omega

/-- The year that is found for a number is between two years if the number is between their days. -/
theorem year_ofDay_bounds {n first last : Int} (hfirst : yearStart first ≤ n + origin)
    (hlast : n + origin < yearStart (last + 1)) :
    first ≤ (ofDay n).year ∧ (ofDay n).year ≤ last := by
  obtain ⟨-, -, hbegins, hends⟩ := ofDay_spec n
  refine ⟨Int.not_lt.1 fun hbefore => ?_, Int.not_lt.1 fun hbehind => ?_⟩
  · have := yearStart_mono (show (ofDay n).year + 1 ≤ first by omega)
    omega
  · have := yearStart_mono (show last + 1 ≤ (ofDay n).year by omega)
    omega

end Date
end Detour
