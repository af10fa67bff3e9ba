import Detour.Text.Basic

/-!
# Runs of case pairs

A map between code points that keeps most of them, given as a sorted list of *runs*: the code
points from `first` to `last` in steps of `step` are moved by `shift`, and no other is moved by
that run.
-/

namespace Detour

/-- Code points at equal distances that are all moved by the same amount. -/
structure CaseRun where
  /-- the first code point -/
  first : Nat
  /-- the last code point -/
  last : Nat
  /-- the distance of two neighbours -/
  step : Nat
  /-- the amount by which each is moved -/
  shift : Int
deriving Repr, DecidableEq

namespace CaseRun

/-- Whether a code point belongs to a run. -/
def has (r : CaseRun) (n : Nat) : Bool :=
  r.first ≤ n && n ≤ r.last && (n - r.first) % r.step == 0

/-- The image of a code point; one that no run has is kept. -/
def map (runs : List CaseRun) (n : Nat) : Nat :=
  match runs with
  | [] => n
  | r :: rest =>
    if n < r.first then n
    else if r.has n then (n + r.shift).toNat
    else map rest n

/-- The code points that runs move to `n`. -/
def sources (runs : List CaseRun) (n : Nat) : List Nat :=
  runs.filterMap fun r =>
    let source := ((n : Int) - r.shift).toNat
    if r.has source && (source : Int) + r.shift == n then some source else none

/-- A code point is kept or moved by a run that has it. -/
theorem map_eq_or (runs : List CaseRun) (n : Nat) :
    map runs n = n ∨ ∃ r ∈ runs, r.has n ∧ map runs n = (n + r.shift).toNat := by
  induction runs with
  | nil => exact .inl rfl
  | cons r rest ih =>
    simp only [map]
    split
    · exact .inl rfl
    · split
      · rename_i hr
        exact .inr ⟨r, List.mem_cons_self, hr, rfl⟩
      · rcases ih with h | ⟨q, hq, hn, h⟩
        · exact .inl h
        · exact .inr ⟨q, List.mem_cons_of_mem r hq, hn, h⟩

/-- A code point of a run lies between its first and its last one. -/
theorem bounds_of_has {r : CaseRun} {n : Nat} (h : r.has n) : r.first ≤ n ∧ n ≤ r.last := by
  simp only [has, Bool.and_eq_true, decide_eq_true_eq] at h
  exact h.1

end CaseRun

end Detour
