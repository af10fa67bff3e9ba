import Detour.Expr.Room
import Detour.Rewrite.Letters
import Detour.Session
import Detour.Url.Absolute
import Mathlib.Algebra.Ring.Nat

/-!
# The books of a session

What stands in the books after any number of steps, told from what the steps look like from outside.

* `Step` is a step as it is seen: its mode, what was demanded and what was answered; `Step.hit?` and
  `Step.miss?` say what it leaves in the books.
* `Desk` are the books of a ledger that is stored after every hit, on a disk that may refuse, and of a
  log that takes every entry.
* `Desk.Tallies` is the invariant: the ledger counts the hits of the steps so far, and the log holds
  their misses in order. `Desk.Tallies.step` carries it over one step, `Desk.tallies_booksAt` over a
  run.
-/

namespace Detour

/-! ## Steps from outside -/

/-- The diagnostic mode after a demand. -/
def Demand.modeAfter (mode : Bool) : Demand → Bool
  | .diagnostic enabled => enabled
  | _ => mode

/-- A step of a session as it is seen from outside. -/
structure Step where
  /-- whether it was served in the diagnostic mode -/
  diagnostic : Bool
  /-- what was demanded -/
  demand : Demand
  /-- what was answered -/
  answer : Answer
deriving Repr, DecidableEq

namespace Step

/-- The steps of a session that begins in some mode. -/
def list (mode : Bool) : List Demand → List Answer → List Step
  | demand :: demands, answer :: answers =>
    ⟨mode, demand, answer⟩ :: list (demand.modeAfter mode) demands answers
  | _, _ => []

/-- The decision of a live pass. -/
def live? (t : Step) : Option (Request × Decision) :=
  match t.diagnostic, t.demand, t.answer with
  | false, .resolve request _, .decided p => some (request, p.decision)
  | _, _, _ => none

/-- The rule that a live pass redirects by. -/
def hit? (t : Step) : Option RuleId :=
  match t.live? with
  | some (_, .redirect _ _ rule) => rule
  | _ => none

/-- The request that a live pass finds nothing for, if such requests are logged. -/
def miss? (logMisses : Bool) (t : Step) : Option Request :=
  match t.live? with
  | some (request, .noMatch) => if logMisses then some request else none
  | _ => none

/-- In the diagnostic mode no pass is live. -/
theorem live?_diagnostic (demand : Demand) (answer : Answer) :
    (⟨true, demand, answer⟩ : Step).live? = none := rfl

/-- Only a demand for a decision makes a live pass. -/
theorem live?_of_ne {mode : Bool} {demand : Demand} (answer : Answer)
    (h : ∀ request now, demand ≠ .resolve request now) :
    (⟨mode, demand, answer⟩ : Step).live? = none := by
  cases mode <;> cases demand <;> first | rfl | exact absurd rfl (h _ _)

/-- Outside the diagnostic mode a pass is live. -/
theorem live?_resolve (request : Request) (now : Instant) (p : Pass) :
    (⟨false, .resolve request now, .decided p⟩ : Step).live? = some (request, p.decision) := rfl

/-- A step that is no live pass leaves nothing. -/
theorem idle_of_live? {t : Step} (h : t.live? = none) (logMisses : Bool) :
    t.hit? = none ∧ t.miss? logMisses = none := by
  rw [hit?, miss?, h]
  exact ⟨rfl, rfl⟩

end Step

namespace Session

/-- The steps of a run. -/
def steps (s : Session) (k : Keeper σ) (books : σ) (demands : List Demand) : List Step :=
  Step.list s.engine.diagnostic demands ((s.run k books demands).map Prod.fst)

/-- The books after so many steps of a run. -/
def booksAt (s : Session) (k : Keeper σ) (books : σ) (demands : List Demand) : Nat → σ
  | 0 => books
  | n + 1 => ((s.run k books demands)[n]?.map Prod.snd).getD books

variable {σ : Type} {τ : Type}

/-- The mode after a step is that after its demand. -/
theorem diagnostic_step (s : Session) (k : Keeper σ) (books : σ) (demand : Demand) :
    (s.step k books demand).2.1.engine.diagnostic = demand.modeAfter s.engine.diagnostic := by
  cases demand <;> rfl

/-- No step changes whether missing pages are logged. -/
theorem logMisses_step (s : Session) (k : Keeper σ) (books : σ) (demand : Demand) :
    (s.step k books demand).2.1.engine.logMisses = s.engine.logMisses := by
  cases demand <;> rfl

/-- Only a demand for a decision changes the books. -/
theorem books_step_of_ne (s : Session) (k : Keeper σ) (books : σ) {demand : Demand}
    (h : ∀ request now, demand ≠ .resolve request now) : (s.step k books demand).2.2 = books := by
  cases demand with
  | resolve request now => exact absurd rfl (h request now)
  | diagnose request now => exact s.serve_diagnostic k request now books
  | diagnostic enabled => rfl
  | rules rules => rfl
  | collections collections => rfl

/-- In the diagnostic mode no demand changes the books. -/
theorem books_step_diagnostic {s : Session} (hmode : s.engine.diagnostic = true) (k : Keeper σ)
    (books : σ) (demand : Demand) : (s.step k books demand).2.2 = books := by
  by_cases h : ∃ request now, demand = .resolve request now
  · obtain ⟨request, now, rfl⟩ := h
    rw [step, hmode]
    exact s.serve_diagnostic k request now books
  · have hne : ∀ request now, demand ≠ .resolve request now :=
      fun request now heq => h ⟨request, now, heq⟩
    exact s.books_step_of_ne k books hne

/-- The steps of a run are its first step and those of the rest. -/
theorem steps_cons (s : Session) (k : Keeper σ) (books : σ) (demand : Demand)
    (rest : List Demand) :
    s.steps k books (demand :: rest) =
      ⟨s.engine.diagnostic, demand, (s.step k books demand).1⟩ ::
        (s.step k books demand).2.1.steps k (s.step k books demand).2.2 rest := by
  rw [steps, steps, run, diagnostic_step]
  rfl

/-- A run answers every demand. -/
theorem length_run (s : Session) (k : Keeper σ) (books : σ) (demands : List Demand) :
    (s.run k books demands).length = demands.length := by
  induction demands generalizing s books with
  | nil => rfl
  | cons demand rest ih =>
    rw [run, List.length_cons, List.length_cons]
    exact congrArg (· + 1) (ih _ _)

/-- A run makes one step for every demand. -/
theorem length_steps (s : Session) (k : Keeper σ) (books : σ) (demands : List Demand) :
    (s.steps k books demands).length = demands.length := by
  induction demands generalizing s books with
  | nil => rfl
  | cons demand rest ih =>
    rw [steps_cons, List.length_cons, List.length_cons, ih]

/-- The books after one step and some more are those of the rest. -/
theorem booksAt_cons_succ (s : Session) (k : Keeper σ) (books : σ) (demand : Demand)
    {rest : List Demand} {n : Nat} (h : n ≤ rest.length) :
    s.booksAt k books (demand :: rest) (n + 1) =
      (s.step k books demand).2.1.booksAt k (s.step k books demand).2.2 rest n := by
  cases n with
  | zero => rfl
  | succ n =>
    have hn : n < ((s.step k books demand).2.1.run k (s.step k books demand).2.2 rest).length := by
      rw [length_run]
      omega
    rw [booksAt, booksAt, run, List.getElem?_cons_succ, List.getElem?_eq_getElem hn]
    rfl

/-- The answers of a run do not depend on who keeps the books, nor on how entries are taken. -/
theorem answers_run (s : Session) (k : Keeper σ) (books : σ) (l : Keeper τ) (other : τ)
    (demands : List Demand) :
    (s.run k books demands).map Prod.fst = (s.run l other demands).map Prod.fst := by
  induction demands generalizing s books other with
  | nil => rfl
  | cons demand rest ih =>
    obtain ⟨hanswer, hnext⟩ := s.step_keeper k books l other demand
    rw [run, run, List.map_cons, List.map_cons, hanswer, hnext]
    exact congrArg _ (ih _ _ _)

end Session

/-! ## The desk -/

/-- The books of a ledger that is stored after every hit and of a log that takes every entry. -/
structure Desk where
  /-- the hits of all rules, and where they are stored -/
  hits : HitBook
  /-- how the hits so far were taken, the latest first -/
  receipts : List Receipt
  /-- the requests without an answer, in order -/
  misses : List Miss

/-- A desk without entries. -/
def Desk.empty (path : Option Path) : Desk := ⟨HitBook.empty path, [], []⟩

/-- The keeper of a desk. The ledger is stored on whatever disk is found at that time: `found n` for
the hit behind `n` others, whether or not it can be written to. -/
def Keeper.desk (found : Nat → Disk) : Keeper Desk :=
  ⟨fun id now d =>
      let (hits, written) := d.hits.record (found d.receipts.length) id now
      (.ofWriting written, { d with hits := hits, receipts := .ofWriting written :: d.receipts }),
    fun request now d => (.entered, { d with misses := d.misses ++ [⟨request, now⟩] })⟩

namespace Desk

/-- The ledger counts the hits of some steps, and the log holds their misses in order. -/
structure Tallies (logMisses : Bool) (past : List Step) (d : Desk) : Prop where
  /-- the count of each rule; a rule without a hit is absent -/
  hits : ∀ id, (d.hits.ledger.get? id).map (fun r => r.hits.toNat) =
    if (past.filterMap Step.hit?).count id = 0 then none
    else some ((past.filterMap Step.hit?).count id)
  /-- the requests that nothing was found for -/
  misses : d.misses.map Miss.request = past.filterMap (Step.miss? logMisses)

/-- A step that is to leave nothing: one in the diagnostic mode, one that is no live pass, or a pass
that redirects without a rule. -/
def Quiet (t : Step) : Prop :=
  t.diagnostic = true ∨ (∀ p, t.answer ≠ .decided p) ∨
    ∃ p url permanent, t.answer = .decided p ∧ p.decision = .redirect url permanent none

/-- What a step leaves on the desk: nothing in the ledger without a hit, nothing in the log without a
miss, never something in both, and nothing at all if it is quiet. -/
structure Enters (logMisses : Bool) (t : Step) (before after : Desk) : Prop where
  /-- without a hit the ledger is as before -/
  ledger : t.hit? = none → after.hits = before.hits
  /-- without a miss the log is as before -/
  log : t.miss? logMisses = none → after.misses = before.misses
  /-- one of the two is as before -/
  one : after.hits = before.hits ∨ after.misses = before.misses
  /-- a quiet step changes nothing -/
  quiet : Quiet t → after = before

/-- A desk without entries tallies with no steps. -/
theorem tallies_empty (logMisses : Bool) (path : Option Path) :
    Tallies logMisses [] (empty path) :=
  ⟨fun _ => rfl, rfl⟩

/-- A step that leaves nothing keeps the tally. -/
theorem Tallies.idle {logMisses : Bool} {past : List Step} {d : Desk} {t : Step}
    (h : Tallies logMisses past d) (hhit : t.hit? = none) (hmiss : t.miss? logMisses = none) :
    Tallies logMisses (past ++ [t]) d := by
  refine ⟨?_, ?_⟩
  · intro id
    rw [List.filterMap_append, List.filterMap_cons_none hhit, List.filterMap_nil, List.append_nil]
    exact h.hits id
  · rw [List.filterMap_append, List.filterMap_cons_none hmiss, List.filterMap_nil, List.append_nil]
    exact h.misses

/-- Counting a hit keeps the tally, as long as the count does not go round. -/
theorem Tallies.hit {logMisses : Bool} {past : List Step} {d : Desk} {t : Step} {id : RuleId}
    (found : Nat → Disk) (now : Instant) (h : Tallies logMisses past d) (hhit : t.hit? = some id)
    (hmiss : t.miss? logMisses = none) (hsize : past.length + 1 < 2 ^ 64) :
    Tallies logMisses (past ++ [t]) ((Keeper.desk found).hit id now d).2 := by
  have hledger : ((Keeper.desk found).hit id now d).2.hits.ledger = d.hits.ledger.record id now := rfl
  refine ⟨?_, ?_⟩
  · intro other
    rw [hledger, List.filterMap_append, List.filterMap_cons_some hhit, List.filterMap_nil,
      List.count_append]
    by_cases hother : other = id
    · subst hother
      -- a rule has at most as many hits as there are steps, so its count fits
      have hcount : (past.filterMap Step.hit?).count other ≤ past.length :=
        Nat.le_trans List.count_le_length (List.length_filterMap_le _ _)
      rw [List.count_singleton_self, if_neg (Nat.succ_ne_zero _)]
      have hfits : (past.filterMap Step.hit?).count other + 1 < UInt64.size :=
        Nat.lt_of_le_of_lt (Nat.succ_le_succ hcount) hsize
      exact Ledger.hits_record_self now (h.hits other) hfits
    · have hne : (id == other) = false := beq_false_of_ne (Ne.symm hother)
      rw [Ledger.get?_record, if_neg hother, List.count_singleton, hne]
      exact h.hits other
  · rw [List.filterMap_append, List.filterMap_cons_none hmiss, List.filterMap_nil, List.append_nil]
    exact h.misses

/-- Logging a miss keeps the tally. -/
theorem Tallies.miss {logMisses : Bool} {past : List Step} {d : Desk} {t : Step} {request : Request}
    (found : Nat → Disk) (now : Instant) (h : Tallies logMisses past d) (hhit : t.hit? = none)
    (hmiss : t.miss? logMisses = some request) :
    Tallies logMisses (past ++ [t]) ((Keeper.desk found).miss request now d).2 := by
  refine ⟨?_, ?_⟩
  · intro id
    rw [List.filterMap_append, List.filterMap_cons_none hhit, List.filterMap_nil, List.append_nil]
    exact h.hits id
  · rw [List.filterMap_append, List.filterMap_cons_some hmiss, List.filterMap_nil, ← h.misses]
    exact List.map_append

/-! ## One step -/

section OneStep

variable {s : Session} {found : Nat → Disk} {d : Desk} {past : List Step} {demand : Demand}

/-- **What a step can do to a desk.** It leaves nothing; or it is a hit and counted as such; or it is
a miss and logged as such. -/
theorem step_cases (s : Session) (found : Nat → Disk) (d : Desk) (demand : Demand) :
    let t : Step := ⟨s.engine.diagnostic, demand, (s.step (.desk found) d demand).1⟩
    (t.hit? = none ∧ t.miss? s.engine.logMisses = none ∧ (s.step (.desk found) d demand).2.2 = d) ∨
    (∃ id now, t.hit? = some id ∧ t.miss? s.engine.logMisses = none ∧
      (s.step (.desk found) d demand).2.2 = ((Keeper.desk found).hit id now d).2) ∨
    (∃ request now, t.hit? = none ∧ t.miss? s.engine.logMisses = some request ∧
      (s.step (.desk found) d demand).2.2 = ((Keeper.desk found).miss request now d).2) := by
  intro t
  by_cases hdemand : ∃ request now, demand = .resolve request now
  · obtain ⟨request, now, rfl⟩ := hdemand
    rcases hmode : s.engine.diagnostic with _ | _
    · rcases hpass : s.engine.pass false s.rules s.collections request now with _ | p
      · -- the pass breaks down, so that there is no decision
        have hstep : s.step (.desk found) d (.resolve request now) = (.broken, s, d) := by
          rw [Session.step, hmode, Session.serve_of_broken hpass]
          rfl
        have hlive : t.live? = none := by
          simp only [t, hmode, hstep]
          rfl
        obtain ⟨hhit, hmiss⟩ := Step.idle_of_live? hlive s.engine.logMisses
        exact .inl ⟨hhit, hmiss, by rw [hstep]⟩
      have hstep : s.step (.desk found) d (.resolve request now) = (.decided p, s,
          ((Keeper.desk found).enter request now (s.engine.note false p.decision) d).2) := by
        rw [Session.step, hmode, Session.serve_of_pass hpass]
        rfl
      have hlive : t.live? = some (request, p.decision) := by
        simp only [t, hmode, hstep]
        exact Step.live?_resolve ..
      rw [hstep]
      simp only [Step.hit?, Step.miss?, hlive]
      rcases p.decision with ⟨url, permanent, _ | id⟩ | ⟨url, status⟩ | _
      · -- a redirect by no rule: for the bare entry script, or to the legacy site
        exact .inl ⟨rfl, rfl, rfl⟩
      · exact .inr (.inl ⟨id, now, rfl, rfl, rfl⟩)
      · exact .inl ⟨rfl, rfl, rfl⟩
      · rcases hlog : s.engine.logMisses with _ | _
        · exact .inl ⟨rfl, rfl, by simp [Engine.note, hlog, Keeper.enter]⟩
        · exact .inr (.inr ⟨request, now, rfl, rfl, by simp [Engine.note, hlog, Keeper.enter]⟩)
    · have hlive : t.live? = none := by
        simp only [t, hmode]
        exact Step.live?_diagnostic ..
      obtain ⟨hhit, hmiss⟩ := Step.idle_of_live? hlive s.engine.logMisses
      exact .inl ⟨hhit, hmiss, Session.books_step_diagnostic hmode _ _ _⟩
  · have hne : ∀ request now, demand ≠ .resolve request now :=
      fun request now heq => hdemand ⟨request, now, heq⟩
    have hlive : t.live? = none := Step.live?_of_ne _ hne
    obtain ⟨hhit, hmiss⟩ := Step.idle_of_live? hlive s.engine.logMisses
    exact .inl ⟨hhit, hmiss, s.books_step_of_ne _ _ hne⟩

/-- A quiet step is no hit and no miss. -/
theorem Quiet.idle {t : Step} (h : Quiet t) (logMisses : Bool) :
    t.hit? = none ∧ t.miss? logMisses = none := by
  obtain ⟨mode, demand, answer⟩ := t
  rcases h with h | h | ⟨p, url, permanent, h, hp⟩
  · obtain rfl : mode = true := h
    exact Step.idle_of_live? (Step.live?_diagnostic demand answer) logMisses
  · refine Step.idle_of_live? ?_ logMisses
    unfold Step.live?
    split
    · rename_i p _ _ hanswer
      exact absurd hanswer (h p)
    · rfl
  · subst h
    unfold Step.hit? Step.miss? Step.live?
    grind

/-- One step enters what it is to enter. -/
theorem enters_step :
    Enters s.engine.logMisses ⟨s.engine.diagnostic, demand, (s.step (.desk found) d demand).1⟩ d
      (s.step (.desk found) d demand).2.2 := by
  rcases step_cases s found d demand with
    ⟨hhit, hmiss, hafter⟩ | ⟨id, now, hhit, hmiss, hafter⟩ | ⟨request, now, hhit, hmiss, hafter⟩
  · rw [hafter]
    exact ⟨fun _ => rfl, fun _ => rfl, .inl rfl, fun _ => rfl⟩
  · rw [hafter]
    refine ⟨fun h => ?_, fun _ => rfl, .inr rfl, fun h => ?_⟩
    · rw [hhit] at h
      cases h
    · rw [(h.idle s.engine.logMisses).1] at hhit
      cases hhit
  · rw [hafter]
    refine ⟨fun _ => rfl, fun h => ?_, .inl rfl, fun h => ?_⟩
    · rw [hmiss] at h
      cases h
    · rw [(h.idle s.engine.logMisses).2] at hmiss
      cases hmiss

/-- One step keeps the tally. -/
theorem Tallies.step (h : Tallies s.engine.logMisses past d) (hsize : past.length + 1 < 2 ^ 64) :
    Tallies s.engine.logMisses
      (past ++ [⟨s.engine.diagnostic, demand, (s.step (.desk found) d demand).1⟩])
      (s.step (.desk found) d demand).2.2 := by
  rcases step_cases s found d demand with
    ⟨hhit, hmiss, hafter⟩ | ⟨id, now, hhit, hmiss, hafter⟩ | ⟨request, now, hhit, hmiss, hafter⟩
  · rw [hafter]
    exact h.idle hhit hmiss
  · rw [hafter]
    exact h.hit found now hhit hmiss hsize
  · rw [hafter]
    exact h.miss found now hhit hmiss

end OneStep

/-! ## Runs -/

section Runs

variable {found : Nat → Disk}

/-- A run keeps the tally, as long as no count can go round. -/
theorem Tallies.booksAt {s : Session} {d : Desk} {past : List Step} {demands : List Demand} {n : Nat}
    (h : Tallies s.engine.logMisses past d) (hsize : past.length + demands.length < 2 ^ 64)
    (hn : n ≤ demands.length) :
    Tallies s.engine.logMisses (past ++ (s.steps (.desk found) d demands).take n)
      (s.booksAt (.desk found) d demands n) := by
  induction demands generalizing s d past n with
  | nil =>
    obtain rfl : n = 0 := Nat.le_zero.1 hn
    rw [List.take_zero, List.append_nil]
    exact h
  | cons demand rest ih =>
    cases n with
    | zero =>
      rw [List.take_zero, List.append_nil]
      exact h
    | succ n =>
      have hrest : n ≤ rest.length := Nat.le_of_succ_le_succ hn
      rw [List.length_cons] at hsize
      have hstep : Tallies s.engine.logMisses
          (past ++ [⟨s.engine.diagnostic, demand, (s.step (.desk found) d demand).1⟩])
          (s.step (.desk found) d demand).2.2 := h.step (by omega)
      rw [← Session.logMisses_step s (.desk found) d demand] at hstep
      have hrun := ih hstep (by simp only [List.length_append, List.length_singleton]; omega) hrest
      rw [Session.logMisses_step, List.append_assoc, List.singleton_append] at hrun
      rw [Session.steps_cons, List.take_succ_cons, Session.booksAt_cons_succ _ _ _ _ hrest]
      exact hrun

/-- Every step of a run enters what it is to enter. -/
theorem enters_booksAt {s : Session} {d : Desk} {demands : List Demand} {n : Nat} {t : Step}
    (ht : (s.steps (.desk found) d demands)[n]? = some t) :
    Enters s.engine.logMisses t (s.booksAt (.desk found) d demands n)
      (s.booksAt (.desk found) d demands (n + 1)) := by
  induction demands generalizing s d n with
  | nil => cases ht
  | cons demand rest ih =>
    rw [Session.steps_cons] at ht
    cases n with
    | zero =>
      obtain rfl := Option.some.inj ht
      exact enters_step
    | succ n =>
      rw [List.getElem?_cons_succ] at ht
      have hn : n < rest.length := by
        rw [← Session.length_steps _ (.desk found) _ rest]
        exact (List.getElem?_eq_some_iff.1 ht).1
      have hrun := ih ht
      rw [Session.logMisses_step] at hrun
      rw [Session.booksAt_cons_succ _ _ _ _ (Nat.le_of_lt hn), Session.booksAt_cons_succ _ _ _ _ hn]
      exact hrun

/-- **The books of a session.** A desk that is empty at first tallies with the steps after every
number of them, whether or not the ledger could be stored; every step enters what it is to enter; and
whoever keeps the books, in whatever way entries are taken, the answers are the same. -/
theorem tallies_run (s : Session) (path : Option Path) (found : Nat → Disk) (demands : List Demand)
    (h : demands.length < 2 ^ 64) :
    (∀ n ≤ demands.length,
      Tallies s.engine.logMisses ((s.steps (.desk found) (empty path) demands).take n)
        (s.booksAt (.desk found) (empty path) demands n)) ∧
    (∀ n t, (s.steps (.desk found) (empty path) demands)[n]? = some t →
      Enters s.engine.logMisses t (s.booksAt (.desk found) (empty path) demands n)
        (s.booksAt (.desk found) (empty path) demands (n + 1))) ∧
    (∀ (τ : Type) (k : Keeper τ) (books : τ),
      (s.run k books demands).map Prod.fst =
        (s.run (.desk found) (empty path) demands).map Prod.fst) := by
  refine ⟨?_, fun n t => enters_booksAt, fun τ k books => s.answers_run k books _ _ demands⟩
  intro n hn
  have hstart := tallies_empty s.engine.logMisses path
  exact hstart.booksAt (by simpa using h) hn

/-- A session with one rule. -/
def sampleSession : Session :=
  ⟨⟨['/'], [], false, true, ⟨.off, false⟩, none, Directory.empty⟩,
    [Rule.new 7 "a".toList "/b".toList], []⟩

/-- Three live passes that the rule decides or that find nothing, others in between. -/
def sampleDemands : List Demand :=
  [.resolve ⟨"/a".toList, none, none⟩ ⟨0, 0⟩, .diagnostic true,
    .resolve ⟨"/a".toList, none, none⟩ ⟨1, 0⟩, .resolve ⟨"/c".toList, none, none⟩ ⟨2, 0⟩,
    .diagnostic false, .diagnose ⟨"/a".toList, none, none⟩ ⟨3, 0⟩,
    .resolve ⟨"/c".toList, none, none⟩ ⟨4, 0⟩, .resolve ⟨"/a".toList, none, none⟩ ⟨5, 0⟩]

/-- The path of a ledger in a folder. -/
def samplePath : Option Path := some ["d".toList, "h".toList]

/-- A disk without the folder at first, and one with it later. -/
def sampleDisks (n : Nat) : Disk := if n = 0 then ⟨[]⟩ else ⟨[(["d".toList], .folder)]⟩

/-- Of two hits the first cannot be stored, and yet both are counted; the passes of the diagnostic mode
are not. -/
theorem tallies_run_sample :
    sampleDemands.length < 2 ^ 64 ∧
      ((sampleSession.booksAt (.desk sampleDisks) (empty samplePath) sampleDemands 8).hits.ledger.get?
        7).map (fun r => r.hits.toNat) = some 2 ∧
      (sampleSession.booksAt (.desk sampleDisks) (empty samplePath) sampleDemands 8).misses.map
        Miss.request = [⟨"/c".toList, none, none⟩] ∧
      (sampleSession.booksAt (.desk sampleDisks) (empty samplePath) sampleDemands 8).receipts =
        [.entered, .refused .io] := by
  have hsize : sampleDemands.length < 2 ^ 64 := by decide
  have h := (tallies_run sampleSession samplePath sampleDisks sampleDemands hsize).1 8 (by decide)
  refine ⟨hsize, ?_, ?_, ?_⟩
  · rw [h.hits 7]
    rfl
  · rw [h.misses]
    rfl
  · rfl

end Runs

end Desk

end Detour
