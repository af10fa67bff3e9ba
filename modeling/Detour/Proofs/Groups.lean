import Detour.Expr.Reading
import Detour.Proofs.Matching

/-!
# The groups of an expression

Groups get their numbers in the order in which they open. Every number is given once, and what a match
notes under a number is a run of the group with that number.

* `Expr.capturing` lists the groups of an expression with what stands inside of them.
* `Expr.exists_capturing_of_build?` is what building an expression does to the groups, from which
  `Expr.capturing_of_ofTokens?` follows for all tokens of an expression.
* `Expr.exists_of_mem_notes`: a note is a run of a group.
-/

namespace Detour

namespace Expr

/-- The capturing groups of an expression: their numbers with what stands inside of them. -/
def capturing : Expr → List (Nat × Expr)
  | empty | one _ | edge _ => []
  | seq a b | alt a b => a.capturing ++ b.capturing
  | rep _ _ a => a.capturing
  | group none a => a.capturing
  | group (some n) a => (n, a) :: a.capturing

/-- Whether every repetition in an expression allows a round. -/
def allowsRounds : Expr → Bool
  | empty | one _ | edge _ => true
  | seq a b | alt a b => a.allowsRounds && b.allowsRounds
  | rep _ hi a => hi != some 0 && a.allowsRounds
  | group _ a => a.allowsRounds

/-- A sequence has the groups of its parts. -/
@[simp] theorem capturing_seqAll (es : List Expr) : (seqAll es).capturing = es.flatMap capturing := by
  fun_induction seqAll es <;> simp_all [capturing]

/-- A choice has the groups of its branches. -/
@[simp] theorem capturing_altAll (es : List Expr) : (altAll es).capturing = es.flatMap capturing := by
  fun_induction altAll es <;> simp_all [capturing]

/-- A sequence allows rounds if its parts do. -/
@[simp] theorem allowsRounds_seqAll (es : List Expr) :
    (seqAll es).allowsRounds = es.all allowsRounds := by
  fun_induction seqAll es <;> simp_all [allowsRounds]

/-- A choice allows rounds if its branches do. -/
@[simp] theorem allowsRounds_altAll (es : List Expr) :
    (altAll es).allowsRounds = es.all allowsRounds := by
  fun_induction altAll es <;> simp_all [allowsRounds]

/-- The greatest number of a group, if every repetition allows a round. -/
theorem groups_eq {e : Expr} (h : e.allowsRounds) :
    e.groups = (e.capturing.map Prod.fst).foldr max 0 := by
  have happend : ∀ ms ns : List Nat,
      (ms ++ ns).foldr max 0 = max (ms.foldr max 0) (ns.foldr max 0) := by
    intro ms ns
    induction ms with
    | nil => simp
    | cons m ms ih => simp [ih, Nat.max_assoc]
  fun_induction groups e <;> simp_all [allowsRounds, capturing]
  case case8 number a ih => cases number <;> simp_all [capturing]

/-- There are as many groups as numbers, if these are given in a row. -/
theorem groups_of_perm {e : Expr} {n : Nat} (h : e.allowsRounds)
    (hperm : (e.capturing.map Prod.fst).Perm (List.range' 1 n)) : e.groups = n := by
  have hrow : ∀ m, (List.range' 1 m).foldr max 0 = m := by
    intro m
    induction m with
    | zero => rfl
    | succ m ih =>
      have hlast : ∀ (ms : List Nat) (k : Nat), ms.foldr max k = max (ms.foldr max 0) k := by
        intro ms k
        induction ms with
        | nil => simp
        | cons m ms ih => rw [List.foldr_cons, List.foldr_cons, ih, Nat.max_assoc]
      rw [List.range'_concat, List.foldr_append, hlast, ih]
      simp [Nat.add_comm]
  rw [groups_eq h, ← hrow n]
  exact hperm.foldr_eq 0

end Expr

/-! ### Building -/

/-- Whether a token is no repetition without rounds. -/
def Token.allowsRound : Token → Bool
  | .rounds _ (some 0) => false
  | _ => true

namespace Level

/-- The groups in the parts of a level. -/
def capturing (l : Level) : List (Nat × Expr) := (l.branches ++ l.parts).flatMap Expr.capturing

/-- Whether all repetitions in the parts of a level allow a round. -/
def allowsRounds (l : Level) : Bool := (l.branches ++ l.parts).all Expr.allowsRounds

variable (l : Level)

/-- One part more does not change the number. -/
theorem number_insert (e : Expr) : (l.insert e).number = l.number := rfl

/-- One part more adds its groups. -/
theorem capturing_insert (e : Expr) : (l.insert e).capturing.Perm (e.capturing ++ l.capturing) := by
  simp only [capturing, insert, List.flatMap_append, List.flatMap_cons]
  rw [← List.append_assoc, ← List.append_assoc]
  exact List.perm_append_comm.append_right _

/-- A bar moves the groups of the last branch. -/
theorem capturing_bar : l.bar.capturing.Perm l.capturing := by
  simp only [capturing, bar, branch, List.append_nil, List.flatMap_cons, List.flatMap_append,
    Expr.capturing_seqAll]
  exact List.perm_append_comm.trans ((List.reverse_perm _).flatMap_right _ |>.append_left _)

/-- The choice between the branches of a level has its groups. -/
theorem capturing_choice : l.choice.capturing.Perm l.capturing := by
  rw [choice, Expr.capturing_altAll]
  have hbranches : (l.branch :: l.branches).flatMap Expr.capturing = l.bar.capturing := by
    rw [capturing, bar, List.append_nil]
  refine ((List.reverse_perm _).flatMap_right _).trans ?_
  rw [hbranches]
  exact l.capturing_bar

/-- A repetition of the last part has the same groups. -/
theorem capturing_repeatLast? {l l' : Level} {lo : Nat} {hi : Option Nat}
    (h : l.repeatLast? lo hi = some l') : l'.capturing = l.capturing ∧ l'.number = l.number := by
  unfold repeatLast? at h
  split at h
  · cases h
  · rename_i e parts hparts
    rw [← Option.some.inj h]
    simp [capturing, hparts, Expr.capturing]

/-- A level with one part more allows rounds if both do. -/
@[simp] theorem allowsRounds_insert (e : Expr) :
    (l.insert e).allowsRounds = (e.allowsRounds && l.allowsRounds) := by
  simp [allowsRounds, insert, Bool.and_left_comm]

/-- A bar keeps the repetitions. -/
@[simp] theorem allowsRounds_bar : l.bar.allowsRounds = l.allowsRounds := by
  simp [allowsRounds, bar, branch, Bool.and_comm]

/-- The choice between the branches of a level allows rounds if the level does. -/
@[simp] theorem allowsRounds_choice : l.choice.allowsRounds = l.allowsRounds := by
  simp [allowsRounds, choice, branch]

/-- A level allows rounds at its beginning. -/
@[simp] theorem allowsRounds_start (number : Option Nat) : (start number).allowsRounds := rfl

/-- A level with its last part repeated allows rounds if the level does and a round is allowed. -/
theorem allowsRounds_repeatLast? {l l' : Level} {lo : Nat} {hi : Option Nat} (hhi : hi ≠ some 0)
    (h : l.repeatLast? lo hi = some l') : l'.allowsRounds = l.allowsRounds := by
  unfold repeatLast? at h
  split at h
  · cases h
  · rename_i e parts hparts
    rw [← Option.some.inj h]
    simp [allowsRounds, hparts, Expr.allowsRounds, bne_iff_ne.2 hhi]

end Level

namespace Expr

/-- The expression has these groups and others besides, with these numbers. -/
def Adds (e : Expr) (groups : List (Nat × Expr)) (numbers : List Nat) : Prop :=
  ∃ added, e.capturing.Perm (groups ++ added) ∧ (added.map Prod.fst).Perm numbers

/-- The order of groups and numbers does not matter. -/
theorem Adds.congr {e : Expr} {groups groups' : List (Nat × Expr)} {numbers numbers' : List Nat}
    (h : Adds e groups numbers) (hgroups : groups.Perm groups') (hnumbers : numbers.Perm numbers') :
    Adds e groups' numbers' := by
  obtain ⟨added, hall, hadded⟩ := h
  exact ⟨added, hall.trans (hgroups.append_right _), hadded.trans hnumbers⟩

/-- One of the groups may be left to the others. -/
theorem Adds.release {e a : Expr} {n : Nat} {groups : List (Nat × Expr)} {numbers : List Nat}
    (h : Adds e ((n, a) :: groups) numbers) : Adds e groups (n :: numbers) := by
  obtain ⟨added, hall, hadded⟩ := h
  refine ⟨(n, a) :: added, hall.trans ?_, hadded.cons n⟩
  exact List.perm_middle.symm

/-- The numbers of the groups that are still open: those of all levels but the outermost. -/
def openNumbers (level : Level) : List Level → List Nat
  | [] => []
  | parent :: outer => level.number.toList ++ openNumbers parent outer

/-- The numbers of the open groups do not depend on their parts. -/
theorem openNumbers_congr {level level' : Level} (h : level'.number = level.number)
    (outer : List Level) : openNumbers level' outer = openNumbers level outer := by
  cases outer with
  | nil => rfl
  | cons parent outer => rw [openNumbers, openNumbers, h]

/-- What is built has the groups of the open levels, and besides them the groups that are still open
and those that open later. -/
theorem adds_of_build? {level : Level} {outer : List Level} {next : Nat} {ts : List Token} {e : Expr}
    (h : build? level outer next ts = some e) :
    Adds e ((level :: outer).flatMap Level.capturing)
      (openNumbers level outer ++ List.range' next (ts.count (.opening true))) := by
  induction ts generalizing level outer next with
  | nil =>
    simp only [build?, List.isEmpty_iff] at h
    split at h
    · rename_i houter
      subst houter
      obtain rfl := Option.some.inj h
      refine ⟨[], ?_, by simp [openNumbers]⟩
      simpa using level.capturing_choice
    · cases h
  | cons token ts ih =>
    -- where no group opens or closes, the groups of the level stay the same
    have same {level' : Level} (hgroups : level'.capturing.Perm level.capturing)
        (hnumber : level'.number = level.number) (htoken : token ≠ .opening true)
        (h : build? level' outer next ts = some e) :
        Adds e ((level :: outer).flatMap Level.capturing)
          (openNumbers level outer ++ List.range' next ((token :: ts).count (.opening true))) := by
      rw [List.count_cons_of_ne htoken, ← openNumbers_congr hnumber]
      exact (ih h).congr (hgroups.append_right _) (.refl _)
    cases token with
    | literal c => exact same (level.capturing_insert (.one (.char c))) rfl (by simp) h
    | set a => exact same (level.capturing_insert (.one a)) rfl (by simp) h
    | edge place => exact same (level.capturing_insert (.edge place)) rfl (by simp) h
    | bar => exact same level.capturing_bar rfl (by simp) h
    | rounds lo hi =>
      simp only [build?] at h
      split at h
      · rename_i level' hrep
        obtain ⟨hgroups, hnumber⟩ := Level.capturing_repeatLast? hrep
        exact same (.of_eq hgroups) hnumber (by simp) h
      · cases h
    | opening capturing =>
      cases capturing with
      | false =>
        rw [List.count_cons_of_ne (by simp)]
        exact (ih h).congr (.refl _) (.refl _)
      | true =>
        rw [List.count_cons_self, List.range'_succ]
        exact (ih h).congr (.refl _) List.perm_middle.symm
    | closing =>
      cases outer with
      | nil => cases h
      | cons parent outer =>
        rw [List.count_cons_of_ne (by simp)]
        -- the closed group stands in the parent, and what was in the level stands inside of it
        have hclosed := (ih h).congr ((parent.capturing_insert _).append_right _) (.refl _)
        have hinside := level.capturing_choice.append_right
          (parent.capturing ++ outer.flatMap Level.capturing)
        rw [openNumbers_congr (parent.number_insert _), List.append_assoc] at hclosed
        rcases hnumber : level.number with _ | n
        · rw [hnumber, capturing] at hclosed
          rw [openNumbers, hnumber]
          exact hclosed.congr hinside (.refl _)
        · rw [hnumber, capturing] at hclosed
          rw [openNumbers, hnumber]
          exact hclosed.release.congr hinside (.refl _)
    | bad => cases h

/-- The groups of an expression are numbered in a row. -/
theorem numbers_of_ofTokens? {ts : List Token} {e : Expr} (h : ofTokens? ts = some e) :
    (e.capturing.map Prod.fst).Perm (List.range' 1 (ts.count (.opening true))) := by
  obtain ⟨added, hall, hadded⟩ := adds_of_build? h
  exact (hall.map Prod.fst).trans hadded

/-- Behind some tokens the others are read with as many more groups. -/
theorem exists_build?_of_append {level : Level} {outer : List Level} {next : Nat}
    {lead ts : List Token} {e : Expr} (h : build? level outer next (lead ++ ts) = some e) :
    ∃ level outer, build? level outer (next + lead.count (.opening true)) ts = some e := by
  induction lead generalizing level outer next with
  | nil => exact ⟨level, outer, h⟩
  | cons token lead ih =>
    cases token with
    | opening capturing =>
      cases capturing with
      | false => simpa using ih h
      | true =>
        obtain ⟨level, outer, hrest⟩ := ih h
        refine ⟨level, outer, ?_⟩
        rwa [List.count_cons_self, Nat.add_right_comm, Nat.add_assoc] at *
    | rounds lo hi =>
      simp only [List.cons_append, build?] at h
      split at h
      · simpa using ih h
      · cases h
    | closing =>
      cases outer with
      | nil => cases h
      | cons parent outer => simpa using ih h
    | bad => cases h
    | _ => simpa using ih h

/-- A group whose tokens are read stands in the expression, under its number. -/
theorem mem_capturing_of_build? {level : Level} {outer : List Level} {next : Nat}
    {ts : List Token} {e : Expr} (h : build? level outer next ts = some e) {group : Nat × Expr}
    (hgroup : group ∈ level.capturing) : group ∈ e.capturing := by
  obtain ⟨added, hall, -⟩ := adds_of_build? h
  rw [hall.mem_iff]
  simp [hgroup]

/-- Repetitions that are all written with rounds allow rounds. -/
theorem allowsRounds_of_build? {level : Level} {outer : List Level} {next : Nat} {ts : List Token}
    {e : Expr} (hts : ∀ t ∈ ts, t.allowsRound) (hlevels : ∀ l ∈ level :: outer, l.allowsRounds)
    (h : build? level outer next ts = some e) : e.allowsRounds := by
  fun_induction build? level outer next ts
  case case1 level _ _ _ =>
    obtain rfl := Option.some.inj h
    simpa using hlevels level List.mem_cons_self
  case case6 hi _ hrep ih =>
    have hhi : hi ≠ some 0 := by
      rintro rfl
      exact absurd (hts _ List.mem_cons_self) (by simp [Token.allowsRound])
    have hlevel := Level.allowsRounds_repeatLast? hhi hrep
    simp_all
  all_goals simp_all [allowsRounds]

end Expr

/-! ### Notes -/

namespace Plan

variable {skip a : Plan} {i j : Nat} {ns : Notes} {x : Nat × Nat × Nat}

/-- What is noted by one round or more is noted by one of them. -/
theorem exists_of_mem_rounds {run : Nat → Nat → Notes → Prop} (h : Rounds run i j ns) (hx : x ∈ ns)
    (hle : ∀ {i j ns}, run i j ns → i ≤ j) : ∃ k l ms, run k l ms ∧ x ∈ ms ∧ l ≤ j := by
  induction h with
  | last h => exact ⟨_, _, _, h, hx, Nat.le_refl _⟩
  | more h hmore ih =>
    rcases List.mem_append.1 hx with hx | hx
    · exact ih hx
    · exact ⟨_, _, _, h, hx, hmore.le hle⟩

/-- What is noted by a plan repeated up to so many times is noted by one of the rounds. -/
theorem exists_of_mem_upTo (hskip : ∀ {i j ns}, skip.Runs i j ns → ns = []) {n : Nat}
    (h : (upTo skip a n).Runs i j ns) (hx : x ∈ ns) : ∃ k l ms, a.Runs k l ms ∧ x ∈ ms ∧ l ≤ j := by
  induction n generalizing i j ns with
  | zero =>
    rw [hskip h] at hx
    cases hx
  | succ n ih =>
    rcases h with ⟨k, ms, ls, hround, hrest, rfl⟩ | h
    · rcases List.mem_append.1 hx with hx | hx
      · exact ih hrest hx
      · exact ⟨i, k, ms, hround, hx, hrest.le⟩
    · rw [hskip h] at hx
      cases hx

/-- What is noted by a plan repeated so many times is noted by one of the rounds or behind them. -/
theorem exists_of_mem_times {rest : Plan} {n : Nat} (h : (times a n rest).Runs i j ns) (hx : x ∈ ns) :
    (∃ k l ms, a.Runs k l ms ∧ x ∈ ms ∧ l ≤ j) ∨ ∃ k ms, rest.Runs k j ms ∧ x ∈ ms := by
  induction n generalizing i ns with
  | zero => exact .inr ⟨i, ns, h, hx⟩
  | succ n ih =>
    obtain ⟨k, ms, ls, hround, hrest, rfl⟩ := h
    rcases List.mem_append.1 hx with hx | hx
    · exact ih hrest hx
    · exact .inl ⟨i, k, ms, hround, hx, hrest.le⟩

/-- What is noted by a repetition is noted by one of its rounds. -/
theorem exists_of_mem_repetition (hskip : ∀ {i j ns}, skip.Runs i j ns → ns = []) {lo : Nat}
    {hi : Option Nat} (h : (rounds skip a lo hi).Runs i j ns) (hx : x ∈ ns) :
    ∃ k l ms, a.Runs k l ms ∧ x ∈ ms ∧ l ≤ j := by
  cases hi with
  | some hi =>
    rcases exists_of_mem_times h hx with h | ⟨k, ms, hrest, hx⟩
    · exact h
    · exact exists_of_mem_upTo hskip hrest hx
  | none =>
    cases lo with
    | zero =>
      rcases h with h | h
      · exact exists_of_mem_rounds h hx Runs.le
      · rw [hskip h] at hx
        cases hx
    | succ lo =>
      rcases exists_of_mem_times h hx with h | ⟨k, ms, hrest, hx⟩
      · exact h
      · exact exists_of_mem_rounds hrest hx Runs.le

end Plan

namespace Expr

/-- A note of a run is a run of a group with that number. -/
theorem exists_of_mem_notes {e : Expr} {s : Text} {i j n k l : Nat} {ns : Plan.Notes}
    (h : (Plan.ofExpr s e).Runs i j ns) (hnote : (n, k, l) ∈ ns) :
    ∃ a ms, (n, a) ∈ e.capturing ∧ (Plan.ofExpr s a).Runs k l ms ∧ l ≤ j := by
  induction e generalizing i j ns with
  | empty =>
    obtain ⟨-, -, rfl⟩ := h
    cases hnote
  | one set =>
    obtain ⟨-, -, rfl⟩ := h
    cases hnote
  | edge place =>
    obtain ⟨-, -, rfl⟩ := h
    cases hnote
  | seq a b iha ihb =>
    obtain ⟨m, ms, ls, ha, hb, rfl⟩ := h
    rcases List.mem_append.1 hnote with hnote | hnote
    · obtain ⟨body, ks, hmem, hrun, hle⟩ := ihb hb hnote
      exact ⟨body, ks, List.mem_append_right _ hmem, hrun, hle⟩
    · obtain ⟨body, ks, hmem, hrun, hle⟩ := iha ha hnote
      exact ⟨body, ks, List.mem_append_left _ hmem, hrun, hle.trans hb.le⟩
  | alt a b iha ihb =>
    rcases h with h | h
    · obtain ⟨body, ks, hmem, hrun, hle⟩ := iha h hnote
      exact ⟨body, ks, List.mem_append_left _ hmem, hrun, hle⟩
    · obtain ⟨body, ks, hmem, hrun, hle⟩ := ihb h hnote
      exact ⟨body, ks, List.mem_append_right _ hmem, hrun, hle⟩
  | rep lo hi a ih =>
    have hskip : ∀ {i j : Nat} {ns : Plan.Notes},
        (Plan.guard (allPlaces s.length)).Runs i j ns → ns = [] := fun h => h.2.2
    obtain ⟨_, m, ms, hround, hnote, hm⟩ := Plan.exists_of_mem_repetition hskip h hnote
    obtain ⟨body, ks, hmem, hrun, hle⟩ := ih hround hnote
    exact ⟨body, ks, hmem, hrun, hle.trans hm⟩
  | group number a ih =>
    cases number with
    | none => exact ih h hnote
    | some number =>
      obtain ⟨ms, hrun, rfl⟩ := h
      rcases List.mem_cons.1 hnote with heq | hnote
      · obtain ⟨rfl, rfl, rfl⟩ : n = number ∧ k = i ∧ l = j := by simpa using heq
        exact ⟨a, ms, List.mem_cons_self, hrun, Nat.le_refl _⟩
      · obtain ⟨body, ks, hmem, hbody, hle⟩ := ih hrun hnote
        exact ⟨body, ks, List.mem_cons_of_mem _ hmem, hbody, hle⟩

end Expr

end Detour
