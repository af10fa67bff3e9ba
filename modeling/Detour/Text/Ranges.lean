import Detour.Text.Basic

/-!
# Ranges of code points

A class of characters given as a sorted list of closed ranges. The test stops at the first range
that begins behind the code point, so that ASCII characters are decided by the first few ranges.
-/

namespace Detour

/-- Whether a number lies in one of the closed ranges of a sorted list. -/
def inRanges (n : Nat) : List (Nat × Nat) → Bool
  | [] => false
  | (lo, hi) :: rest => if n < lo then false else n ≤ hi || inRanges n rest

/-- A number that the test accepts lies in one of the ranges. -/
theorem exists_range_of_inRanges {n : Nat} {ranges : List (Nat × Nat)} (h : inRanges n ranges) :
    ∃ r ∈ ranges, r.1 ≤ n ∧ n ≤ r.2 := by
  induction ranges with
  | nil => simp [inRanges] at h
  | cons r rest ih =>
    obtain ⟨lo, hi⟩ := r
    simp only [inRanges] at h
    split at h
    · simp at h
    · simp only [Bool.or_eq_true, decide_eq_true_eq] at h
      rcases h with h | h
      · exact ⟨(lo, hi), by simp, by simp; omega, h⟩
      · obtain ⟨r, hr, hb⟩ := ih h
        exact ⟨r, List.mem_cons_of_mem _ hr, hb⟩

end Detour
