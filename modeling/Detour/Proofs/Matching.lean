import Detour.Expr.Plan
import Mathlib.Data.Finset.Card
import Mathlib.Data.Finset.Range

/-!
# What the matcher finds

A *run* of a plan leads from one position to another and notes what the groups captured. The two
passes of the matcher are tied to the runs here, so that everything else about expressions can be
said without a word on sets of positions or on the order in which branches are tried.

* `Plan.Runs` has one clause per plan; `Plan.Rounds` are the rounds of a loop.
* `Plan.testBit_back`: the backward pass finds exactly the positions with a run to the goal.
* `Plan.runs_of_advance?` and `Plan.exists_advance?`: the forward pass ends in the goal, by a run
  whose notes it keeps, and it never gets stuck where the backward pass let it in.
* `Expr.match?_eq_none_iff` and `Expr.runs_of_match?` say the same of a whole match.
-/

namespace Detour

namespace Plan

/-! ### Runs -/

/-- One round or more, one behind the other; the notes of later rounds come first. -/
inductive Rounds (run : Nat → Nat → Notes → Prop) : Nat → Nat → Notes → Prop where
  /-- a round that is the last one -/
  | last {i j : Nat} {ns : Notes} : run i j ns → Rounds run i j ns
  /-- a round with more of them behind -/
  | more {i j k : Nat} {ns ms : Notes} :
      run i j ns → Rounds run j k ms → Rounds run i k (ms ++ ns)

/-- Whether a plan leads from one position to another with some notes. -/
def Runs : Plan → (i j : Nat) → Notes → Prop
  | step places, i, j, ns => places.testBit i ∧ j = i + 1 ∧ ns = []
  | guard places, i, j, ns => places.testBit i ∧ j = i ∧ ns = []
  | seq a b, i, k, ns => ∃ j ms ls, a.Runs i j ms ∧ b.Runs j k ls ∧ ns = ls ++ ms
  | alt a b, i, j, ns => a.Runs i j ns ∨ b.Runs i j ns
  | loop a, i, j, ns => Rounds (fun k l ms => a.Runs k l ms) i j ns
  | group n a, i, j, ns => ∃ ms, a.Runs i j ms ∧ ns = (n, i, j) :: ms

/-- Rounds that each lead forward lead forward. -/
theorem Rounds.le {run : Nat → Nat → Notes → Prop} {i j : Nat} {ns : Notes}
    (hrun : ∀ {i j ns}, run i j ns → i ≤ j) (h : Rounds run i j ns) : i ≤ j := by
  induction h with
  | last h => exact hrun h
  | more h _ ih => exact (hrun h).trans ih

/-- A run leads forward. -/
theorem Runs.le {p : Plan} {i j : Nat} {ns : Notes} (h : p.Runs i j ns) : i ≤ j := by
  induction p generalizing i j ns with
  | step places =>
    obtain ⟨_, rfl, _⟩ := h
    exact Nat.le_succ i
  | guard places =>
    obtain ⟨_, rfl, _⟩ := h
    exact Nat.le_refl j
  | seq a b iha ihb =>
    obtain ⟨_, _, _, ha, hb, _⟩ := h
    exact (iha ha).trans (ihb hb)
  | alt a b iha ihb =>
    rcases h with h | h
    · exact iha h
    · exact ihb h
  | loop a ih => exact Rounds.le ih h
  | group n a ih =>
    obtain ⟨_, ha, _⟩ := h
    exact ih ha

/-! ### The closure of a set of positions -/

/-- The position `i` belongs to `goal` or has rounds into it. -/
def Leads (run : Nat → Nat → Notes → Prop) (goal i : Nat) : Prop :=
  goal.testBit i ∨ ∃ j ns, Rounds run i j ns ∧ goal.testBit j

/-- `back` finds exactly the positions with a run into a set. -/
def FindsBack (run : Nat → Nat → Notes → Prop) (back : Nat → Nat) : Prop :=
  ∀ goal i, (back goal).testBit i ↔ ∃ j ns, run i j ns ∧ goal.testBit j

/-- The positions up to `top` that a set lacks. -/
def missing (top set : Nat) : Finset Nat := (Finset.range (top + 1)).filter fun i => !set.testBit i

/-- No position of a set lies above its logarithm. -/
theorem le_log2_of_testBit {set i : Nat} (h : set.testBit i) : i ≤ set.log2 := by
  have hpow : 2 ^ i ≤ set := Nat.ge_two_pow_of_testBit h
  have hne : set ≠ 0 := by
    rintro rfl
    simp at h
  exact (Nat.le_log2 hne).2 hpow

variable {run : Nat → Nat → Notes → Prop} {back : Nat → Nat}

/-- Every position of the closure leads into the goal. -/
theorem leads_of_closure (hback : FindsBack run back) {fuel goal i : Nat}
    (h : (closure back fuel goal).testBit i) : Leads run goal i := by
  induction fuel generalizing goal i with
  | zero => exact .inl h
  | succ fuel ih =>
    simp only [closure] at h
    split at h
    · exact .inl h
    -- a position of the larger set either was in the goal or has one round into it
    have step : ∀ k, (goal ||| back goal).testBit k → Leads run goal k := by
      intro k hk
      rw [Nat.testBit_or, Bool.or_eq_true] at hk
      rcases hk with hk | hk
      · exact .inl hk
      · obtain ⟨j, ns, hr, hj⟩ := (hback goal k).1 hk
        exact .inr ⟨j, ns, .last hr, hj⟩
    rcases ih h with hi | ⟨j, ns, hr, hj⟩
    · exact step i hi
    · refine .inr ?_
      rcases step j hj with hj | ⟨k, ms, hr', hk⟩
      · exact ⟨j, ns, hr, hj⟩
      · clear h ih hj
        induction hr with
        | last h => exact ⟨k, _, .more h hr', hk⟩
        | more h _ ih =>
          obtain ⟨k, ms, hr, hk⟩ := ih hr'
          exact ⟨k, _, .more h hr, hk⟩

/-- The closure has the goal. -/
theorem testBit_closure_of_goal {fuel goal i : Nat} (h : goal.testBit i) :
    (closure back fuel goal).testBit i := by
  induction fuel generalizing goal with
  | zero => exact h
  | succ fuel ih =>
    simp only [closure]
    split
    · exact h
    · refine ih ?_
      rw [Nat.testBit_or, h, Bool.true_or]

/-- With enough rounds the closure has all positions with a run into it: every round but the last
adds a position, and there are no more of them than those up to `top`. -/
theorem closure_closed (hback : FindsBack run back) (hle : ∀ {i j ns}, run i j ns → i ≤ j)
    {top fuel goal : Nat} (htop : ∀ i, goal.testBit i → i ≤ top)
    (hfuel : (missing top goal).card < fuel) {i : Nat}
    (h : (back (closure back fuel goal)).testBit i) : (closure back fuel goal).testBit i := by
  induction fuel generalizing goal with
  | zero => exact absurd hfuel (Nat.not_lt_zero _)
  | succ fuel ih =>
    simp only [closure] at h ⊢
    split
    · rename_i hmore
      rw [if_pos hmore] at h
      rw [← hmore, Nat.testBit_or, h, Bool.or_true]
    · rename_i hmore
      rw [if_neg hmore] at h
      have hbacktop : ∀ k, (back goal).testBit k → k ≤ top := by
        intro k hk
        obtain ⟨j, ns, hr, hj⟩ := (hback goal k).1 hk
        exact (hle hr).trans (htop j hj)
      obtain ⟨k, hk, hkgoal⟩ : ∃ k, (back goal).testBit k ∧ ¬ goal.testBit k := by
        by_contra hall
        refine hmore (Nat.eq_of_testBit_eq fun k => ?_)
        rw [Nat.testBit_or]
        by_cases hk : goal.testBit k
        · simp [hk]
        · have : ¬ (back goal).testBit k := fun hb => hall ⟨k, hb, hk⟩
          simp [hk, this]
      have hless : (missing top (goal ||| back goal)).card < (missing top goal).card := by
        refine Finset.card_lt_card ⟨?_, ?_⟩
        · intro l hl
          simp only [missing, Finset.mem_filter, Nat.testBit_or] at hl ⊢
          simp_all
        · intro hsub
          have hin : k ∈ missing top goal := by
            have := hbacktop k hk
            simp only [missing, Finset.mem_filter, Finset.mem_range]
            simp [hkgoal]
            omega
          have := hsub hin
          simp [missing, Nat.testBit_or, hk] at this
      refine ih ?_ (by omega) h
      intro l hl
      rw [Nat.testBit_or, Bool.or_eq_true] at hl
      rcases hl with hl | hl
      · exact htop l hl
      · exact hbacktop l hl

/-- The closure that a loop computes has exactly the positions that lead into the goal. -/
theorem testBit_closure (hback : FindsBack run back) (hle : ∀ {i j ns}, run i j ns → i ≤ j)
    (goal i : Nat) : (closure back (goal.log2 + 2) goal).testBit i ↔ Leads run goal i := by
  refine ⟨leads_of_closure hback, ?_⟩
  have hfuel : (missing goal.log2 goal).card < goal.log2 + 2 := by
    have := Finset.card_filter_le (Finset.range (goal.log2 + 1)) fun i => !goal.testBit i
    rw [Finset.card_range] at this
    exact Nat.lt_succ_of_le this
  have closed : ∀ {j}, (back (closure back (goal.log2 + 2) goal)).testBit j →
      (closure back (goal.log2 + 2) goal).testBit j :=
    fun h => closure_closed hback hle (fun _ => le_log2_of_testBit) hfuel h
  rintro (h | ⟨j, ns, hr, hj⟩)
  · exact testBit_closure_of_goal h
  · have hend : (closure back (goal.log2 + 2) goal).testBit j := testBit_closure_of_goal hj
    clear hj
    induction hr with
    | last h => exact closed ((hback _ _).2 ⟨_, _, h, hend⟩)
    | more h _ ih => exact closed ((hback _ _).2 ⟨_, _, h, ih hend⟩)

/-! ### The backward pass -/

/-- The backward pass finds exactly the positions with a run into the goal. -/
theorem testBit_back (p : Plan) : FindsBack p.Runs p.back := by
  induction p with
  | step places =>
    intro goal i
    simp only [back, Runs, Nat.testBit_and, Nat.testBit_shiftRight, Bool.and_eq_true,
      Nat.add_comm 1 i]
    refine ⟨?_, ?_⟩
    · rintro ⟨hi, hj⟩
      exact ⟨i + 1, [], ⟨hi, rfl, rfl⟩, hj⟩
    · rintro ⟨j, ns, ⟨hi, rfl, _⟩, hj⟩
      exact ⟨hi, hj⟩
  | guard places =>
    intro goal i
    simp only [back, Runs, Nat.testBit_and, Bool.and_eq_true]
    refine ⟨?_, ?_⟩
    · rintro ⟨hi, hj⟩
      exact ⟨i, [], ⟨hi, rfl, rfl⟩, hj⟩
    · rintro ⟨j, ns, ⟨hi, rfl, _⟩, hj⟩
      exact ⟨hi, hj⟩
  | seq a b iha ihb =>
    intro goal i
    simp only [back, Runs]
    rw [iha]
    refine ⟨?_, ?_⟩
    · rintro ⟨j, ms, ha, hj⟩
      obtain ⟨k, ls, hb, hk⟩ := (ihb goal j).1 hj
      exact ⟨k, ls ++ ms, ⟨j, ms, ls, ha, hb, rfl⟩, hk⟩
    · rintro ⟨k, ns, ⟨j, ms, ls, ha, hb, _⟩, hk⟩
      exact ⟨j, ms, ha, (ihb goal j).2 ⟨k, ls, hb, hk⟩⟩
  | alt a b iha ihb =>
    intro goal i
    simp only [back, Runs, Nat.testBit_or, Bool.or_eq_true]
    rw [iha, ihb]
    refine ⟨?_, ?_⟩
    · rintro (⟨j, ns, h, hj⟩ | ⟨j, ns, h, hj⟩)
      · exact ⟨j, ns, .inl h, hj⟩
      · exact ⟨j, ns, .inr h, hj⟩
    · rintro ⟨j, ns, h | h, hj⟩
      · exact .inl ⟨j, ns, h, hj⟩
      · exact .inr ⟨j, ns, h, hj⟩
  | loop a ih =>
    intro goal i
    simp only [back, Runs]
    rw [ih]
    refine ⟨?_, ?_⟩
    · rintro ⟨j, ns, hr, hj⟩
      -- the round ends in the goal, or between it and another round
      rcases (testBit_closure ih Runs.le goal j).1 hj with hj | ⟨k, ms, hr', hk⟩
      · exact ⟨j, ns, .last hr, hj⟩
      · exact ⟨k, ms ++ ns, .more hr hr', hk⟩
    · rintro ⟨j, ns, hr, hj⟩
      cases hr with
      | last hr => exact ⟨j, ns, hr, (testBit_closure ih Runs.le goal j).2 (.inl hj)⟩
      | @more _ k _ ms ls hr hr' =>
        exact ⟨k, ms, hr, (testBit_closure ih Runs.le goal k).2 (.inr ⟨j, ls, hr', hj⟩)⟩
  | group n a ih =>
    intro goal i
    simp only [back, Runs]
    rw [ih]
    refine ⟨?_, ?_⟩
    · rintro ⟨j, ms, hr, hj⟩
      exact ⟨j, (n, i, j) :: ms, ⟨ms, hr, rfl⟩, hj⟩
    · rintro ⟨j, ns, ⟨ms, hr, _⟩, hj⟩
      exact ⟨j, ms, hr, hj⟩

/-- The positions between two rounds of a loop are those that lead into the goal. -/
theorem testBit_between (a : Plan) (goal i : Nat) :
    (a.between goal).testBit i ↔ Leads a.Runs goal i :=
  testBit_closure (testBit_back a) Runs.le goal i

/-! ### The forward pass -/

/-- A set without one position has the others. -/
theorem testBit_without (set i j : Nat) :
    (without set i).testBit j ↔ set.testBit j ∧ j ≠ i := by
  by_cases hi : set.testBit i
  · rw [without, if_pos hi, Nat.testBit_xor, Nat.one_shiftLeft, Nat.testBit_two_pow]
    by_cases hj : i = j
    · subst hj
      simp [hi]
    · simp [hj, Ne.symm hj]
  · rw [without, if_neg hi]
    refine ⟨fun h => ⟨h, ?_⟩, And.left⟩
    rintro rfl
    exact hi h

/-- `advance` goes forward from where it may to a position of the goal, by a run of whose notes it
keeps. -/
def Forward (run : Nat → Nat → Notes → Prop)
    (advance : Nat → Nat → Notes → Option (Nat × Notes)) : Prop :=
  ∀ {goal i notes j notes'}, advance goal i notes = some (j, notes') →
    goal.testBit j ∧ ∃ ns, notes' = ns ++ notes ∧ run i j ns

/-- Where some rounds end elsewhere, one round leads to another position between two rounds. -/
theorem exists_leaving {goal i k : Nat} {ns : Notes} (h : Rounds run i k ns)
    (hk : goal.testBit k) (hne : k ≠ i) : ∃ j ms, run i j ms ∧ j ≠ i ∧ Leads run goal j := by
  induction h with
  | last h => exact ⟨_, _, h, hne, .inl hk⟩
  | @more i j k ms ls h hr ih =>
    by_cases hj : j = i
    · subst hj
      exact ih hk hne
    · exact ⟨j, ms, h, hj, .inr ⟨k, ls, hr, hk⟩⟩

variable {advance : Nat → Nat → Notes → Option (Nat × Notes)} {goal live : Nat}

/-- Further rounds end in the goal: they stop only where no round leads on, and such a position
between two rounds is in the goal. `fuel` lasts since every round goes forward. -/
theorem rounds_of_moreRounds (hback : FindsBack run back) (hle : ∀ {i j ns}, run i j ns → i ≤ j)
    (hforward : Forward run advance) (hlive : ∀ i, live.testBit i ↔ Leads run goal i)
    {fuel i j : Nat} {notes notes' : Notes} (hi : live.testBit i) (hfuel : goal.log2 < fuel + i)
    (h : moreRounds live back advance fuel i notes = some (j, notes')) :
    goal.testBit j ∧ (j = i ∧ notes' = notes ∨ ∃ ns, notes' = ns ++ notes ∧ Rounds run i j ns) := by
  induction fuel generalizing i notes with
  | zero =>
    -- no position between two rounds lies beyond the goal
    have hbound : i ≤ goal.log2 := by
      rcases (hlive i).1 hi with hi | ⟨k, ns, hr, hk⟩
      · exact le_log2_of_testBit hi
      · exact (Rounds.le hle hr).trans (le_log2_of_testBit hk)
    omega
  | succ fuel ih =>
    simp only [moreRounds] at h
    split at h
    · split at h
      · rename_i k ms hadv
        obtain ⟨hk, ns, rfl, hr⟩ := hforward hadv
        obtain ⟨hk, hne⟩ := (testBit_without live i k).1 hk
        have hik : i ≤ k := hle hr
        obtain ⟨hj, hrest⟩ := ih hk (by omega) h
        refine ⟨hj, .inr ?_⟩
        rcases hrest with ⟨rfl, rfl⟩ | ⟨ls, rfl, hr'⟩
        · exact ⟨ns, rfl, .last hr⟩
        · exact ⟨ls ++ ns, by rw [List.append_assoc], .more hr hr'⟩
      · exact absurd h (by simp)
    · rename_i hstuck
      obtain ⟨rfl, rfl⟩ : i = j ∧ notes = notes' := by simpa using h
      refine ⟨?_, .inl ⟨rfl, rfl⟩⟩
      rcases (hlive i).1 hi with hi | ⟨k, ns, hr, hk⟩
      · exact hi
      · by_contra hgoal
        have hne : k ≠ i := by
          rintro rfl
          exact hgoal hk
        obtain ⟨l, ms, hr, hl, hlead⟩ := exists_leaving hr hk hne
        exact hstuck ((hback _ _).2
          ⟨l, ms, hr, (testBit_without live i l).2 ⟨(hlive l).2 hlead, hl⟩⟩)

/-- Further rounds never get stuck. -/
theorem exists_moreRounds
    (hadvance : ∀ goal i notes, (back goal).testBit i → ∃ r, advance goal i notes = some r)
    (fuel i : Nat) (notes : Notes) : ∃ r, moreRounds live back advance fuel i notes = some r := by
  induction fuel generalizing i notes with
  | zero => exact ⟨(i, notes), rfl⟩
  | succ fuel ih =>
    simp only [moreRounds]
    split
    · rename_i h
      obtain ⟨⟨j, ms⟩, hr⟩ := hadvance _ i notes h
      rw [hr]
      exact ih j ms
    · exact ⟨(i, notes), rfl⟩

/-- The forward pass ends in the goal, by a run whose notes it keeps. -/
theorem runs_of_advance? (p : Plan) : Forward p.Runs p.advance? := by
  induction p with
  | step places =>
    intro goal i notes j notes' h
    simp only [advance?] at h
    split at h
    · rename_i hi
      rw [Bool.and_eq_true] at hi
      obtain ⟨rfl, rfl⟩ : i + 1 = j ∧ notes = notes' := by simpa using h
      exact ⟨hi.2, [], rfl, hi.1, rfl, rfl⟩
    · exact absurd h (by simp)
  | guard places =>
    intro goal i notes j notes' h
    simp only [advance?] at h
    split at h
    · rename_i hi
      rw [Bool.and_eq_true] at hi
      obtain ⟨rfl, rfl⟩ : i = j ∧ notes = notes' := by simpa using h
      exact ⟨hi.2, [], rfl, hi.1, rfl, rfl⟩
    · exact absurd h (by simp)
  | seq a b iha ihb =>
    intro goal i notes k notes' h
    simp only [advance?] at h
    split at h
    · rename_i j ms ha
      obtain ⟨_, ns, rfl, ra⟩ := iha ha
      obtain ⟨hk, ls, rfl, rb⟩ := ihb h
      exact ⟨hk, ls ++ ns, by rw [List.append_assoc], j, ns, ls, ra, rb, rfl⟩
    · exact absurd h (by simp)
  | alt a b iha ihb =>
    intro goal i notes j notes' h
    simp only [advance?] at h
    split at h
    · obtain ⟨hj, ns, hns, hr⟩ := iha h
      exact ⟨hj, ns, hns, .inl hr⟩
    · obtain ⟨hj, ns, hns, hr⟩ := ihb h
      exact ⟨hj, ns, hns, .inr hr⟩
  | group n a ih =>
    intro goal i notes j notes' h
    simp only [advance?] at h
    split at h
    · rename_i k ms ha
      obtain ⟨hk, ns, rfl, hr⟩ := ih ha
      obtain ⟨rfl, rfl⟩ : k = j ∧ (n, i, k) :: (ns ++ notes) = notes' := by simpa using h
      exact ⟨hk, (n, i, k) :: ns, rfl, ns, hr, rfl⟩
    · exact absurd h (by simp)
  | loop a ih =>
    intro goal i notes j notes' h
    have hlive := testBit_between a goal
    simp only [advance?] at h
    split at h
    · rename_i k ms ha
      obtain ⟨hk, ns, rfl, hr⟩ := ih ha
      -- the first round ends between two rounds, and where it began only if that is in the goal
      have hkl : (a.between goal).testBit k ∧ (k = i → goal.testBit i) := by
        by_cases hi : goal.testBit i
        · rw [if_pos hi] at hk
          exact ⟨hk, fun _ => hi⟩
        · rw [if_neg hi] at hk
          have hk := (testBit_without _ i k).1 hk
          exact ⟨hk.1, fun he => absurd he hk.2⟩
      split at h
      · rename_i hki
        obtain ⟨rfl, rfl⟩ : k = j ∧ ns ++ notes = notes' := by simpa using h
        subst hki
        exact ⟨hkl.2 rfl, ns, rfl, .last hr⟩
      · obtain ⟨hj, hrest⟩ := rounds_of_moreRounds (testBit_back a) Runs.le ih hlive hkl.1
          (by omega) h
        refine ⟨hj, ?_⟩
        rcases hrest with ⟨rfl, rfl⟩ | ⟨ls, rfl, hr'⟩
        · exact ⟨ns, rfl, .last hr⟩
        · exact ⟨ls ++ ns, by rw [List.append_assoc], .more hr hr'⟩
    · exact absurd h (by simp)

/-- The forward pass never gets stuck where the backward pass let it in. -/
theorem exists_advance? (p : Plan) (goal i : Nat) (notes : Notes) (h : (p.back goal).testBit i) :
    ∃ r, p.advance? goal i notes = some r := by
  induction p generalizing goal i notes with
  | step places =>
    simp only [back, Nat.testBit_and, Nat.testBit_shiftRight, Nat.add_comm 1 i] at h
    exact ⟨(i + 1, notes), by rw [advance?, if_pos h]⟩
  | guard places =>
    simp only [back, Nat.testBit_and] at h
    exact ⟨(i, notes), by rw [advance?, if_pos h]⟩
  | seq a b iha ihb =>
    obtain ⟨⟨j, ms⟩, ha⟩ := iha (b.back goal) i notes h
    obtain ⟨r, hb⟩ := ihb goal j ms (runs_of_advance? a ha).1
    exact ⟨r, by rw [advance?, ha]; exact hb⟩
  | alt a b iha ihb =>
    simp only [advance?]
    split
    · rename_i ha
      exact iha goal i notes ha
    · rename_i ha
      refine ihb goal i notes ?_
      simpa [back, Nat.testBit_or, ha] using h
  | group n a ih =>
    obtain ⟨⟨j, ms⟩, ha⟩ := ih goal i notes h
    exact ⟨(j, (n, i, j) :: ms), by rw [advance?, ha]⟩
  | loop a ih =>
    have hfirst : (a.back (if goal.testBit i then a.between goal
        else without (a.between goal) i)).testBit i := by
      obtain ⟨j, ns, hr, hj⟩ := (testBit_back a _ i).1 h
      have hj : Leads a.Runs goal j := (testBit_between a goal j).1 hj
      by_cases hi : goal.testBit i
      · rw [if_pos hi]
        exact (testBit_back a _ i).2 ⟨j, ns, hr, (testBit_between a goal j).2 hj⟩
      · rw [if_neg hi]
        -- some rounds end in the goal, so not at `i`, and one of them leaves `i`
        have : ∃ k ls, Rounds a.Runs i k ls ∧ goal.testBit k := by
          rcases hj with hj | ⟨k, ls, hr', hk⟩
          · exact ⟨j, ns, .last hr, hj⟩
          · exact ⟨k, _, .more hr hr', hk⟩
        obtain ⟨k, ls, hrs, hk⟩ := this
        have hne : k ≠ i := by
          rintro rfl
          exact hi hk
        obtain ⟨l, ms, hr, hl, hlead⟩ := exists_leaving hrs hk hne
        exact (testBit_back a _ i).2
          ⟨l, ms, hr, (testBit_without _ i l).2 ⟨(testBit_between a goal l).2 hlead, hl⟩⟩
    obtain ⟨⟨j, ms⟩, ha⟩ := ih _ i notes hfirst
    simp only [advance?]
    rw [ha]
    dsimp only
    split
    · exact ⟨_, rfl⟩
    · exact exists_moreRounds ih _ j ms

end Plan

/-! ### Matches -/

/-- The positions of a text are those up to its length. -/
theorem testBit_allPlaces (size i : Nat) : (allPlaces size).testBit i ↔ i ≤ size := by
  rw [allPlaces, Nat.one_shiftLeft, Nat.testBit_two_pow_sub_one, decide_eq_true_eq]
  exact Nat.lt_succ_iff

namespace Expr

/-- The beginning is asserted at the first position only. -/
theorem testBit_places_start (s : Text) (i : Nat) : (Edge.start.places s).testBit i ↔ i = 0 := by
  cases i <;> simp [Edge.places, Nat.testBit_succ]

/-- The end is asserted at the last position only. -/
theorem testBit_places_stop (s : Text) (i : Nat) :
    (Edge.stop.places s).testBit i ↔ i = s.length := by
  rw [Edge.places, Nat.one_shiftLeft, Nat.testBit_two_pow, decide_eq_true_eq, eq_comm]

/-- There is no match exactly where the plan has no run within the text. -/
theorem match?_eq_none_iff (e : Expr) (s : Text) :
    e.match? s = none ↔
      ∀ i j ns, j ≤ s.length → ¬ (Plan.ofExpr s e).Runs i j ns := by
  have hback := Plan.testBit_back (Plan.ofExpr s e) (allPlaces s.length)
  simp only [match?]
  split
  · rename_i i hfind
    have hi := List.find?_some hfind
    obtain ⟨r, hr⟩ := Plan.exists_advance? _ _ _ [] hi
    obtain ⟨j, ns, hrun, hj⟩ := (hback i).1 hi
    rw [hr]
    refine ⟨?_, ?_⟩
    · simp
    · intro h
      exact absurd hrun (h i j ns ((testBit_allPlaces _ _).1 hj))
  · rename_i hfind
    refine ⟨fun _ i j ns hj hrun => ?_, fun _ => rfl⟩
    rw [List.find?_eq_none] at hfind
    have hi : i < s.length + 1 := Nat.lt_succ_of_le (hrun.le.trans hj)
    exact hfind i (List.mem_range.2 hi)
      ((hback i).2 ⟨j, ns, hrun, (testBit_allPlaces _ _).2 hj⟩)

/-- An expression captures something exactly where its plan has a run within the text. -/
theorem isSome_captures?_iff (e : Expr) (s : Text) : (e.captures? s).isSome ↔
    ∃ i j ns, j ≤ s.length ∧ (Plan.ofExpr s e).Runs i j ns := by
  rw [captures?, Option.isSome_map, ← Option.ne_none_iff_isSome, ne_eq, match?_eq_none_iff]
  push Not
  rfl

/-- A match is a run of the plan within the text. -/
theorem runs_of_match? {e : Expr} {s : Text} {m : Match} (h : e.match? s = some m) :
    m.stop ≤ s.length ∧ (Plan.ofExpr s e).Runs m.start m.stop m.notes := by
  simp only [match?] at h
  split at h
  · rename_i i hfind
    rw [Option.map_eq_some_iff] at h
    obtain ⟨⟨j, notes⟩, hadv, rfl⟩ := h
    obtain ⟨hj, ns, hns, hrun⟩ := Plan.runs_of_advance? _ hadv
    rw [List.append_nil] at hns
    exact ⟨(testBit_allPlaces _ _).1 hj, hns ▸ hrun⟩
  · exact absurd h (by simp)

end Expr

end Detour
