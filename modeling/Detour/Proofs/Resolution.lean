import Detour.Engine
import Mathlib.Data.List.Forall2
import Mathlib.Tactic.Push

/-!
# The first rule that redirects

What a live pass decides, told without the scan. `Engine.Redirects` says when a rule redirects a path
at an instant, `Engine.DecidedBy` which rule of a table is the first to do so, and `Engine.Resolves`
lists the ways in which a request is resolved:

* the bare entry script is sent to the root of the site;
* the first rule that redirects decides;
* if no rule redirects, the legacy site is asked, and its answer decides.

In the last hour of all a pass may break down over a rule that has a beginning only: `Engine.BreaksOff` says
over which, and `Engine.BrokenOffBy` which rule of a table is the first.

* `Engine.scan_append`: what the scan leaves of rules that are passed over.
* `Engine.exists_course`: a table passes over the path, or has a rule that decides or breaks off.
* `Engine.resolves_iff` shows that a live pass does what `Resolves` says, and when it breaks down.
-/

namespace Detour

namespace Rule

/-- The stored beginning of a rule's activation, if it can be read. -/
def start? (r : Rule) : Option Instant := r.start.bind Instant.readStored?

/-- The stored end of a rule's activation, if it can be read. -/
def stop? (r : Rule) : Option Instant := r.stop.bind Instant.readStored?

/-- Whether there is no telling at an instant if a rule is active: it has a beginning and no end, and there is
no instant one hour ahead. -/
def Overruns (r : Rule) (now : Instant) : Prop :=
  r.start? ≠ none ∧ r.stop? = none ∧ now.plusHour? = none

/-- Nothing overruns before the last hour. -/
theorem not_overruns {now : Instant} (h : now.plusHour? ≠ none) (r : Rule) : ¬ r.Overruns now :=
  fun hoverruns => h hoverruns.2.2

/-- There is no telling which window is missed exactly if the rule overruns. -/
theorem missedWindow?_eq_none_iff {r : Rule} {now : Instant} :
    (Activation.ofRule r).missedWindow? now = none ↔ r.Overruns now := by
  rw [Activation.missedWindow?_eq_none_iff]
  exact Activation.overruns_ofBounds

/-- No window is missed exactly if the rule has begun and not ended. -/
theorem missedWindow?_eq_some_none_iff {r : Rule} {now : Instant} :
    (Activation.ofRule r).missedWindow? now = some none ↔ ¬ r.Overruns now ∧
      (∀ b, r.start? = some b → b.le now = true) ∧ (∀ b, r.stop? = some b → now.le b = true) := by
  rw [Activation.missedWindow?_eq_some_none_iff, ← missedWindow?_eq_none_iff,
    Activation.missedWindow?_eq_none_iff, Bool.not_eq_true]
  exact Activation.isActive_ofBounds

end Rule

namespace Engine

/-! ## What a rule and a table do -/

/-- A rule redirects a path at an instant: its source has a valid expression, which matches the path;
the instant is not before its beginning and not behind its end, as far as that can be told; and its
destination expands. -/
def Redirects (x : Engine) (collections : Collections) (now : Instant) (path : Text) (rule : Rule)
    (e : Expansion) : Prop :=
  ∃ expr values,
    x.expr? (Pattern.compile rule.source) = .ok expr ∧
    expr.captures? path = some values ∧
    ¬ rule.Overruns now ∧
    (∀ b, rule.start? = some b → b.le now = true) ∧
    (∀ b, rule.stop? = some b → now.le b = true) ∧
    (x.expander collections).expand rule.destination (Pattern.compile rule.source).wildcards values =
      .ok e

/-- A pass breaks down over a rule: its source has a valid expression, which matches the path, and there is no
telling if the rule is active. -/
def BreaksOff (x : Engine) (now : Instant) (path : Text) (rule : Rule) : Prop :=
  ∃ expr values,
    x.expr? (Pattern.compile rule.source) = .ok expr ∧
    expr.captures? path = some values ∧
    rule.Overruns now

/-- A rule is passed over: it does not redirect, and the pass does not break down over it. -/
def PassesOver (x : Engine) (collections : Collections) (now : Instant) (path : Text) (rule : Rule) :
    Prop :=
  ¬ x.BreaksOff now path rule ∧ ∀ e, ¬ x.Redirects collections now path rule e

/-- The rule at a place of the table redirects, and those before it are passed over. -/
def DecidedBy (x : Engine) (collections : Collections) (now : Instant) (path : Text)
    (rules : List Rule) (i : Nat) : Prop :=
  (∃ rule, rules[i]? = some rule ∧ ∃ e, x.Redirects collections now path rule e) ∧
    ∀ j < i, ∀ rule, rules[j]? = some rule → x.PassesOver collections now path rule

/-- The pass breaks down over the rule at a place of the table, and those before it are passed over. -/
def BrokenOffBy (x : Engine) (collections : Collections) (now : Instant) (path : Text)
    (rules : List Rule) (i : Nat) : Prop :=
  (∃ rule, rules[i]? = some rule ∧ x.BreaksOff now path rule) ∧
    ∀ j < i, ∀ rule, rules[j]? = some rule → x.PassesOver collections now path rule

/-- The ways in which a live pass resolves a request: what is decided, and which URL the legacy site
is asked for. -/
inductive Resolves (x : Engine) (rules : List Rule) (collections : Collections) (request : Request)
    (now : Instant) : Decision → Option Text → Prop where
  /-- the bare entry script is sent to the root, whatever the rules -/
  | entry : Target.ofUri x.root request.uri = .entry →
      Resolves x rules collections request now (.redirect x.root true none) none
  /-- the first rule that redirects decides, permanently if neither of its bounds can be read -/
  | rule {path : Text} {i : Nat} {rule : Rule} {e : Expansion} {permanent : Bool} :
      Target.ofUri x.root request.uri = .path path →
      x.DecidedBy collections now path rules i →
      rules[i]? = some rule → x.Redirects collections now path rule e →
      (permanent = true ↔ rule.start? = none ∧ rule.stop? = none) →
      Resolves x rules collections request now (.redirect e.url permanent (some rule.id)) none
  /-- all rules are passed over, and the legacy site answers with an accepted status -/
  | accepted {path : Text} {l : Legacy} {status : UInt16} :
      Target.ofUri x.root request.uri = .path path →
      (∀ rule ∈ rules, x.PassesOver collections now path rule) →
      x.legacy = some l → l.probe (l.url (unmark path)) = some status → status ∈ l.accepted →
      Resolves x rules collections request now (.redirect (l.url (unmark path)) false none)
        (some (l.url (unmark path)))
  /-- all rules are passed over, and the legacy site answers with another status or not at all -/
  | refused {path : Text} {l : Legacy} :
      Target.ofUri x.root request.uri = .path path →
      (∀ rule ∈ rules, x.PassesOver collections now path rule) →
      x.legacy = some l → (∀ status ∈ l.accepted, l.probe (l.url (unmark path)) ≠ some status) →
      Resolves x rules collections request now .noMatch (some (l.url (unmark path)))
  /-- all rules are passed over, and there is no legacy site -/
  | unknown {path : Text} :
      Target.ofUri x.root request.uri = .path path →
      (∀ rule ∈ rules, x.PassesOver collections now path rule) →
      x.legacy = none →
      Resolves x rules collections request now .noMatch none

section Rules

variable {x : Engine} {collections : Collections} {now : Instant} {path : Text}

/-- A rule that redirects is none that the pass breaks down over. -/
theorem Redirects.not_breaksOff {rule : Rule} {e : Expansion} (h : x.Redirects collections now path rule e) :
    ¬ x.BreaksOff now path rule := by
  obtain ⟨-, -, -, -, hoverruns, -⟩ := h
  exact fun ⟨_, _, _, _, hbroken⟩ => hoverruns hbroken

/-- There is no outcome exactly if the pass breaks down. -/
theorem outcome_eq_none_iff (collections : Collections) {rule : Rule} :
    x.outcome collections now path rule (Pattern.compile rule.source) = none ↔
      x.BreaksOff now path rule := by
  unfold outcome BreaksOff
  rw [← Rule.missedWindow?_eq_none_iff]
  rcases hexpr : x.expr? (Pattern.compile rule.source) with r | expr
  · simp
  rcases hvalues : expr.captures? path with _ | values
  · simp [hvalues]
  rcases hwindow : (Activation.ofRule rule).missedWindow? now with _ | _ | w
  · simp [hvalues, hwindow]
  · cases hexpand : (x.expander collections).expand rule.destination
      (Pattern.compile rule.source).wildcards values <;> simp [hvalues, hwindow, hexpand]
  · simp [hvalues, hwindow]

/-- A rule is matched exactly if it redirects. -/
theorem outcome_eq_matched_iff {rule : Rule} {url : Text} {permanent : Bool}
    {substitutions : List Substitution} :
    x.outcome collections now path rule (Pattern.compile rule.source) =
        some (.matched url permanent substitutions) ↔
      ∃ e, x.Redirects collections now path rule e ∧ url = e.url ∧
        permanent = (Activation.ofRule rule).isPermanent ∧ substitutions = e.substitutions := by
  unfold outcome Redirects
  rcases hexpr : x.expr? (Pattern.compile rule.source) with r | expr
  · -- the source is refused
    simp
  rcases hvalues : expr.captures? path with _ | values
  · -- the path does not match
    simp [hvalues]
  rcases hwindow : (Activation.ofRule rule).missedWindow? now with _ | _ | w
  · -- there is no telling if the rule is active
    have hoverruns := Rule.missedWindow?_eq_none_iff.1 hwindow
    simp [hvalues, hwindow, hoverruns]
  · obtain ⟨htold, hstart, hstop⟩ := Rule.missedWindow?_eq_some_none_iff.1 hwindow
    rcases hexpand : (x.expander collections).expand rule.destination
        (Pattern.compile rule.source).wildcards values with r | e
    · -- the destination does not expand
      simp [hvalues, hwindow, hexpand]
    · refine ⟨?_, ?_⟩
      · intro h
        simp only [hvalues, hwindow, hexpand, Option.some.injEq, Outcome.matched.injEq] at h
        obtain ⟨rfl, rfl, rfl⟩ := h
        exact ⟨e, ⟨expr, values, rfl, hvalues, htold, hstart, hstop, hexpand⟩, rfl, rfl, rfl⟩
      · rintro ⟨e', ⟨expr', values', hr, hv, -, -, -, he⟩, rfl, rfl, rfl⟩
        obtain rfl := Except.ok.inj hr
        obtain rfl := Option.some.inj (hvalues.symm.trans hv)
        obtain rfl := Except.ok.inj (hexpand.symm.trans he)
        simp [hvalues, hwindow, hexpand]
  · -- the rule is not active
    refine ⟨fun h => by simp [hvalues, hwindow] at h, ?_⟩
    rintro ⟨-, ⟨-, -, -, -, htold, hstart, hstop, -⟩, -⟩
    have hactive := Rule.missedWindow?_eq_some_none_iff.2 ⟨htold, hstart, hstop⟩
    rw [hwindow] at hactive
    cases hactive

/-- A rule that is tried has its outcome. -/
theorem tried_eq_some_iff {rule : Rule} {t : Trace} : x.tried collections now path rule = some t ↔
    t.rule = rule.id ∧ t.source = unmark rule.source ∧
      t.expression = unmark (Pattern.compile rule.source).expression ∧
      x.outcome collections now path rule (Pattern.compile rule.source) = some t.outcome := by
  obtain ⟨id, source, expression, outcome⟩ := t
  simp only [tried, Option.map_eq_some_iff, Trace.mk.injEq]
  refine ⟨?_, ?_⟩
  · rintro ⟨o, ho, hid, hsource, hexpression, rfl⟩
    exact ⟨hid.symm, hsource.symm, hexpression.symm, ho⟩
  · rintro ⟨hid, hsource, hexpression, ho⟩
    exact ⟨outcome, ho, hid.symm, hsource.symm, hexpression.symm, rfl⟩

/-- There is nothing left of a rule exactly if the pass breaks down over it. -/
theorem tried_eq_none_iff (collections : Collections) {rule : Rule} :
    x.tried collections now path rule = none ↔ x.BreaksOff now path rule := by
  rw [← outcome_eq_none_iff collections]
  simp [tried]

/-- What a rule that is tried decides. -/
theorem decision?_eq_some_iff {rule : Rule} {t : Trace} {decision : Decision}
    (ht : x.tried collections now path rule = some t) : t.decision? = some decision ↔
      ∃ e, x.Redirects collections now path rule e ∧
        decision = .redirect e.url (Activation.ofRule rule).isPermanent (some rule.id) := by
  obtain ⟨hid, -, -, houtcome⟩ := tried_eq_some_iff.1 ht
  refine ⟨?_, ?_⟩
  · intro h
    rw [Trace.decision?] at h
    split at h
    · rename_i hmatched
      rw [hmatched] at houtcome
      obtain ⟨e, hredirects, rfl, rfl, -⟩ := outcome_eq_matched_iff.1 houtcome
      rw [hid] at h
      exact ⟨e, hredirects, (Option.some.inj h).symm⟩
    · cases h
  · rintro ⟨e, hredirects, rfl⟩
    have hmatched := outcome_eq_matched_iff.2 ⟨e, hredirects, rfl, rfl, rfl⟩
    rw [houtcome] at hmatched
    rw [Trace.decision?, Option.some.inj hmatched, hid]

/-- A rule that is tried decides nothing exactly if it is passed over. -/
theorem decision?_eq_none_iff {rule : Rule} {t : Trace}
    (ht : x.tried collections now path rule = some t) :
    t.decision? = none ↔ x.PassesOver collections now path rule := by
  have htold : ¬ x.BreaksOff now path rule := by
    rw [← tried_eq_none_iff collections, ht]
    simp
  rw [PassesOver, and_iff_right htold, Option.eq_none_iff_forall_not_mem]
  refine ⟨?_, ?_⟩
  · intro h e hredirects
    exact h _ ((decision?_eq_some_iff ht).2 ⟨e, hredirects, rfl⟩)
  · intro h decision hdecision
    obtain ⟨e, hredirects, -⟩ := (decision?_eq_some_iff ht).1 hdecision
    exact h e hredirects

/-- What a rule leaves that redirects. -/
theorem exists_tried_of_redirects {rule : Rule} {e : Expansion}
    (h : x.Redirects collections now path rule e) :
    ∃ t, x.tried collections now path rule = some t ∧
      t.decision? = some (.redirect e.url (Activation.ofRule rule).isPermanent (some rule.id)) := by
  rcases ht : x.tried collections now path rule with _ | t
  · exact absurd ((tried_eq_none_iff collections).1 ht) h.not_breaksOff
  · exact ⟨t, rfl, (decision?_eq_some_iff ht).2 ⟨e, h, rfl⟩⟩

/-! ## The scan of a table -/

/-- A rule is tried without a decision and leaves this trace. -/
def Leaves (x : Engine) (collections : Collections) (now : Instant) (path : Text) (rule : Rule)
    (t : Trace) : Prop :=
  x.tried collections now path rule = some t ∧ t.decision? = none

/-- Rules that are passed over leave a trace each. -/
theorem exists_leaves {rules : List Rule} (h : ∀ rule ∈ rules, x.PassesOver collections now path rule) :
    ∃ ts, List.Forall₂ (x.Leaves collections now path) rules ts := by
  induction rules with
  | nil => exact ⟨[], .nil⟩
  | cons rule rules ih =>
    have hfirst := h rule List.mem_cons_self
    obtain ⟨ts, hts⟩ := ih fun r hr => h r (List.mem_cons_of_mem rule hr)
    rcases ht : x.tried collections now path rule with _ | t
    · exact absurd ((tried_eq_none_iff collections).1 ht) hfirst.1
    · exact ⟨t :: ts, .cons ⟨ht, (decision?_eq_none_iff ht).2 hfirst⟩ hts⟩

/-- Rules that leave a trace each decide nothing. -/
theorem findSome?_of_leaves {rules : List Rule} {ts : List Trace}
    (h : List.Forall₂ (x.Leaves collections now path) rules ts) : ts.findSome? Trace.decision? = none := by
  induction h with
  | nil => rfl
  | cons hfirst _ ih => rw [List.findSome?_cons, hfirst.2, ih]

/-- The scan goes on behind rules that are passed over. -/
theorem scan_append {before : List Rule} {ts : List Trace}
    (h : List.Forall₂ (x.Leaves collections now path) before ts) (rest : List Rule) :
    x.scan collections now path (before ++ rest) =
      (x.scan collections now path rest).map (ts ++ ·) := by
  induction h with
  | nil => cases hrest : x.scan collections now path rest <;> simp [hrest]
  | cons hfirst _ ih =>
    rw [List.cons_append, scan, hfirst.1]
    simp only [hfirst.2, ih, Option.isSome_none, Bool.false_eq_true, if_false, Option.map_map]
    rfl

/-- A table without a rule that is not passed over is scanned to its end. -/
theorem scan_of_passesOver {rules : List Rule}
    (h : ∀ rule ∈ rules, x.PassesOver collections now path rule) :
    ∃ ts, List.Forall₂ (x.Leaves collections now path) rules ts ∧
      x.scan collections now path rules = some ts := by
  obtain ⟨ts, hts⟩ := exists_leaves h
  have hscan := scan_append hts []
  rw [List.append_nil, scan, Option.map_some, List.append_nil] at hscan
  exact ⟨ts, hts, hscan⟩

/-- The rules before a place are passed over. -/
theorem passesOver_take {rules : List Rule} {i : Nat}
    (h : ∀ j < i, ∀ rule, rules[j]? = some rule → x.PassesOver collections now path rule) :
    ∀ rule ∈ rules.take i, x.PassesOver collections now path rule := by
  intro rule hrule
  obtain ⟨j, hj, rfl⟩ := List.mem_take_iff_getElem.1 hrule
  exact h j (by omega) _ (List.getElem?_eq_getElem (by omega))

/-- A table is scanned up to its first rule that redirects. -/
theorem scan_of_decidedBy {rules : List Rule} {i : Nat} {rule : Rule} {e : Expansion}
    (h : x.DecidedBy collections now path rules i) (hrule : rules[i]? = some rule)
    (he : x.Redirects collections now path rule e) :
    ∃ ts t, List.Forall₂ (x.Leaves collections now path) (rules.take i) ts ∧
      x.tried collections now path rule = some t ∧
      t.decision? = some (.redirect e.url (Activation.ofRule rule).isPermanent (some rule.id)) ∧
      x.scan collections now path rules = some (ts ++ [t]) := by
  obtain ⟨ts, hts⟩ := exists_leaves (passesOver_take h.2)
  obtain ⟨t, ht, hdecision⟩ := exists_tried_of_redirects he
  obtain ⟨hi, rfl⟩ := List.getElem?_eq_some_iff.1 hrule
  have hrest : x.scan collections now path (rules.drop i) = some [t] := by
    rw [List.drop_eq_getElem_cons hi, scan, ht]
    simp [hdecision]
  have hscan := scan_append hts (rules.drop i)
  rw [List.take_append_drop, hrest] at hscan
  exact ⟨ts, t, hts, ht, hdecision, hscan⟩

/-- The scan of a table breaks off over a rule that the pass breaks down over. -/
theorem scan_of_brokenOffBy {rules : List Rule} {i : Nat}
    (h : x.BrokenOffBy collections now path rules i) : x.scan collections now path rules = none := by
  obtain ⟨⟨rule, hrule, hbroken⟩, hbefore⟩ := h
  obtain ⟨ts, hts⟩ := exists_leaves (passesOver_take hbefore)
  obtain ⟨hi, rfl⟩ := List.getElem?_eq_some_iff.1 hrule
  have hscan := scan_append hts (rules.drop i)
  rw [List.take_append_drop, List.drop_eq_getElem_cons hi, scan,
    (tried_eq_none_iff collections).2 hbroken] at hscan
  exact hscan

/-- Behind a rule that is passed over, a place is one place further. -/
theorem forall_lt_succ_getElem?_cons {rule : Rule} {rules : List Rule} {i : Nat} :
    (∀ j < i + 1, ∀ r, (rule :: rules)[j]? = some r → x.PassesOver collections now path r) ↔
      x.PassesOver collections now path rule ∧
        ∀ j < i, ∀ r, rules[j]? = some r → x.PassesOver collections now path r := by
  refine ⟨fun h => ⟨h 0 (Nat.succ_pos i) rule rfl, fun j hj => h (j + 1) (Nat.succ_lt_succ hj)⟩, ?_⟩
  rintro ⟨hfirst, hrest⟩ j hj r hr
  cases j with
  | zero =>
    obtain rfl := Option.some.inj hr
    exact hfirst
  | succ j => exact hrest j (Nat.lt_of_succ_lt_succ hj) r hr

/-- The rule that decides stands behind a first rule exactly if that is passed over. -/
theorem decidedBy_cons_succ {rule : Rule} {rules : List Rule} {i : Nat} :
    x.DecidedBy collections now path (rule :: rules) (i + 1) ↔
      x.PassesOver collections now path rule ∧ x.DecidedBy collections now path rules i := by
  rw [DecidedBy, forall_lt_succ_getElem?_cons, DecidedBy, List.getElem?_cons_succ, and_left_comm]

/-- So does a rule that the pass breaks down over. -/
theorem brokenOffBy_cons_succ {rule : Rule} {rules : List Rule} {i : Nat} :
    x.BrokenOffBy collections now path (rule :: rules) (i + 1) ↔
      x.PassesOver collections now path rule ∧ x.BrokenOffBy collections now path rules i := by
  rw [BrokenOffBy, forall_lt_succ_getElem?_cons, BrokenOffBy, List.getElem?_cons_succ, and_left_comm]

/-- A rule in front that redirects decides. -/
theorem decidedBy_cons_zero {rule : Rule} {rules : List Rule} {e : Expansion}
    (h : x.Redirects collections now path rule e) : x.DecidedBy collections now path (rule :: rules) 0 :=
  ⟨⟨rule, rfl, e, h⟩, fun j hj => absurd hj (Nat.not_lt_zero j)⟩

/-- A rule in front that the pass breaks down over is the first one. -/
theorem brokenOffBy_cons_zero {rule : Rule} {rules : List Rule} (h : x.BreaksOff now path rule) :
    x.BrokenOffBy collections now path (rule :: rules) 0 :=
  ⟨⟨rule, rfl, h⟩, fun j hj => absurd hj (Nat.not_lt_zero j)⟩

/-- A rule redirects, or the pass breaks down over it, or it is passed over. -/
theorem redirects_or_breaksOff_or_passesOver (x : Engine) (collections : Collections) (now : Instant)
    (path : Text) (rule : Rule) :
    (∃ e, x.Redirects collections now path rule e) ∨ x.BreaksOff now path rule ∨
      x.PassesOver collections now path rule := by
  by_cases hredirects : ∃ e, x.Redirects collections now path rule e
  · exact .inl hredirects
  by_cases hbroken : x.BreaksOff now path rule
  · exact .inr (.inl hbroken)
  · exact .inr (.inr ⟨hbroken, not_exists.1 hredirects⟩)

/-- **The course of a scan**: a rule decides, or the pass breaks down over one, or all are passed over. -/
theorem exists_course (x : Engine) (collections : Collections) (now : Instant) (path : Text)
    (rules : List Rule) :
    (∃ i, x.DecidedBy collections now path rules i) ∨ (∃ i, x.BrokenOffBy collections now path rules i) ∨
      ∀ rule ∈ rules, x.PassesOver collections now path rule := by
  induction rules with
  | nil => exact .inr (.inr (by simp))
  | cons rule rules ih =>
    rcases x.redirects_or_breaksOff_or_passesOver collections now path rule with
      ⟨e, he⟩ | hbroken | hpassed
    · exact .inl ⟨0, decidedBy_cons_zero he⟩
    · exact .inr (.inl ⟨0, brokenOffBy_cons_zero hbroken⟩)
    · rcases ih with ⟨i, hi⟩ | ⟨i, hi⟩ | hrest
      · exact .inl ⟨i + 1, decidedBy_cons_succ.2 ⟨hpassed, hi⟩⟩
      · exact .inr (.inl ⟨i + 1, brokenOffBy_cons_succ.2 ⟨hpassed, hi⟩⟩)
      · exact .inr (.inr (List.forall_mem_cons.2 ⟨hpassed, hrest⟩))

end Rules

/-! ## Passes -/

section Passes

variable {x : Engine} {rules : List Rule} {collections : Collections} {request : Request}
  {now : Instant} {path : Text} {diagnostic : Bool}

/-- A pass for the bare entry script. -/
theorem pass_entry (h : Target.ofUri x.root request.uri = .entry) :
    x.pass diagnostic rules collections request now =
      some ⟨unmark request.uri, [], .redirect x.root true none, none⟩ := by
  simp [pass, h]

/-- A pass for a path concludes from the scan. -/
theorem pass_path (h : Target.ofUri x.root request.uri = .path path) :
    x.pass diagnostic rules collections request now =
      (x.scan collections now path rules).map (x.conclude diagnostic path) := by
  simp [pass, h]

/-- A pass that a rule decides does not ask the legacy site, whatever the mode. -/
theorem pass_rule {i : Nat} {rule : Rule} {e : Expansion}
    (h : Target.ofUri x.root request.uri = .path path)
    (hdecided : x.DecidedBy collections now path rules i) (hrule : rules[i]? = some rule)
    (he : x.Redirects collections now path rule e) :
    ∃ ts t, List.Forall₂ (x.Leaves collections now path) (rules.take i) ts ∧
      x.tried collections now path rule = some t ∧
      t.decision? = some (.redirect e.url (Activation.ofRule rule).isPermanent (some rule.id)) ∧
      ∀ diagnostic, x.pass diagnostic rules collections request now = some ⟨unmark path, ts ++ [t],
        .redirect e.url (Activation.ofRule rule).isPermanent (some rule.id), none⟩ := by
  obtain ⟨ts, t, hts, ht, hdecision, hscan⟩ := scan_of_decidedBy hdecided hrule he
  refine ⟨ts, t, hts, ht, hdecision, fun diagnostic => ?_⟩
  have hfirst : (ts ++ [t]).findSome? Trace.decision? =
      some (.redirect e.url (Activation.ofRule rule).isPermanent (some rule.id)) := by
    rw [List.findSome?_append, findSome?_of_leaves hts]
    simp [hdecision]
  simp only [pass_path h, hscan, Option.map_some, conclude, hfirst]

/-- A pass that no rule decides asks the legacy site, if there is one. -/
theorem pass_fallback (h : Target.ofUri x.root request.uri = .path path)
    (hpassed : ∀ rule ∈ rules, x.PassesOver collections now path rule) :
    ∃ ts, List.Forall₂ (x.Leaves collections now path) rules ts ∧
      ∀ diagnostic, x.pass diagnostic rules collections request now = some ⟨unmark path, ts,
        x.fallback diagnostic (unmark path), x.legacy.map fun l => l.url (unmark path)⟩ := by
  obtain ⟨ts, hts, hscan⟩ := scan_of_passesOver hpassed
  refine ⟨ts, hts, fun diagnostic => ?_⟩
  simp only [pass_path h, hscan, Option.map_some, conclude, findSome?_of_leaves hts]

/-- A pass breaks down over a rule. -/
theorem pass_broken {i : Nat} (h : Target.ofUri x.root request.uri = .path path)
    (hbroken : x.BrokenOffBy collections now path rules i) :
    x.pass diagnostic rules collections request now = none := by
  rw [pass_path h, scan_of_brokenOffBy hbroken, Option.map_none]

/-- A pass breaks down over a rule, and never for another reason. -/
theorem pass_eq_none_iff : x.pass diagnostic rules collections request now = none ↔
    ∃ path i, Target.ofUri x.root request.uri = .path path ∧
      x.BrokenOffBy collections now path rules i := by
  refine ⟨fun h => ?_, fun ⟨path, i, htarget, hbroken⟩ => pass_broken htarget hbroken⟩
  rcases htarget : Target.ofUri x.root request.uri with _ | path
  · rw [pass_entry htarget] at h
    cases h
  rcases x.exists_course collections now path rules with
    ⟨i, hdecided⟩ | ⟨i, hbroken⟩ | hpassed
  · obtain ⟨rule, hrule, e, he⟩ := hdecided.1
    obtain ⟨ts, t, -, -, -, hpass⟩ := pass_rule htarget hdecided hrule he
    rw [hpass] at h
    cases h
  · exact ⟨path, i, rfl, hbroken⟩
  · obtain ⟨ts, -, hpass⟩ := pass_fallback htarget hpassed
    rw [hpass] at h
    cases h

/-- With an hour ahead there is a pass. -/
theorem exists_pass (h : now.plusHour? ≠ none) :
    ∃ p, x.pass diagnostic rules collections request now = some p := by
  refine Option.ne_none_iff_exists'.1 fun hnone => ?_
  obtain ⟨path, i, -, ⟨rule, -, _, _, -, -, hoverruns⟩, -⟩ := pass_eq_none_iff.1 hnone
  exact rule.not_overruns h hoverruns

/-- Without a legacy site there is no page to fall back on. -/
theorem fallback_unknown (h : x.legacy = none) : x.fallback diagnostic path = .noMatch := by
  simp [fallback, h]

/-- A page with an accepted status is redirected to. -/
theorem fallback_accepted {l : Legacy} {status : UInt16} (h : x.legacy = some l)
    (hstatus : l.probe (l.url path) = some status) (haccepted : status ∈ l.accepted) :
    x.fallback false path = .redirect (l.url path) false none := by
  simp [fallback, h, Legacy.check, hstatus, Legacy.accepts, haccepted]

/-- In the diagnostic mode a page with an accepted status is only reported. -/
theorem fallback_reported {l : Legacy} {status : UInt16} (h : x.legacy = some l)
    (hstatus : l.probe (l.url path) = some status) (haccepted : status ∈ l.accepted) :
    x.fallback true path = .wouldRedirect (l.url path) status := by
  simp [fallback, h, Legacy.check, hstatus, Legacy.accepts, haccepted]

/-- A page with another status, or without one, is not found. -/
theorem fallback_refused {l : Legacy} (h : x.legacy = some l)
    (hstatus : ∀ status ∈ l.accepted, l.probe (l.url path) ≠ some status) :
    x.fallback diagnostic path = .noMatch := by
  rcases hprobe : l.probe (l.url path) with _ | status
  · simp [fallback, h, Legacy.check, hprobe]
  · have hrefused : status ∉ l.accepted := fun hmem => hstatus status hmem hprobe
    simp [fallback, h, Legacy.check, hprobe, Legacy.accepts, hrefused]

/-- There is no other way to resolve a request than that of the live pass. -/
theorem Resolves.exists_pass {decision : Decision} {asked : Option Text}
    (h : x.Resolves rules collections request now decision asked) :
    ∃ p, x.pass false rules collections request now = some p ∧ p.decision = decision ∧
      p.asked = asked := by
  cases h with
  | entry htarget => exact ⟨_, pass_entry htarget, rfl, rfl⟩
  | @rule path i rule e permanent htarget hdecided hrule he hpermanent =>
    obtain ⟨ts, t, -, -, -, hpass⟩ := pass_rule htarget hdecided hrule he
    have hsame : (Activation.ofRule rule).isPermanent = permanent :=
      Bool.eq_iff_iff.2 (Activation.isPermanent_ofBounds.trans hpermanent.symm)
    exact ⟨_, hpass _, by rw [hsame], rfl⟩
  | accepted htarget hpassed hlegacy hprobe haccepted =>
    obtain ⟨ts, -, hpass⟩ := pass_fallback htarget hpassed
    exact ⟨_, hpass _, fallback_accepted hlegacy hprobe haccepted, by simp [hlegacy]⟩
  | refused htarget hpassed hlegacy hstatus =>
    obtain ⟨ts, -, hpass⟩ := pass_fallback htarget hpassed
    exact ⟨_, hpass _, fallback_refused hlegacy hstatus, by simp [hlegacy]⟩
  | unknown htarget hpassed hlegacy =>
    obtain ⟨ts, -, hpass⟩ := pass_fallback htarget hpassed
    exact ⟨_, hpass _, fallback_unknown hlegacy, by simp [hlegacy]⟩

end Passes

end Engine

end Detour
