import Detour.Proofs.Resolution
import Detour.Session

/-!
# What a diagnosis shows

A diagnosis is a pass in the diagnostic mode. It decides what a live pass decides, but a page of the
legacy site is only reported, and it shows what became of every rule up to the one that decides.

* `Engine.Becomes` says what becomes of a rule, by the first condition that it falls short of;
  `Engine.becomes_iff` ties it to the outcome.
* `Engine.ReportedAs` and `Engine.Explains` are what a diagnosis says of a decision and what its trace
  shows of it.
* `Engine.diagnose_explains` puts a diagnosis beside the live pass.
-/

namespace Detour

/-- A rule that was tried decides to redirect exactly if it is matched. -/
theorem Trace.decision?_eq_some_iff {t : Trace} {url : Text} {permanent : Bool} {id : RuleId} :
    t.decision? = some (.redirect url permanent (some id)) ↔
      ∃ substitutions, t.rule = id ∧ t.outcome = .matched url permanent substitutions := by
  obtain ⟨rule, source, expression, outcome⟩ := t
  cases outcome with
  | matched u p substitutions =>
    simp only [Trace.decision?, Option.some.injEq, Decision.redirect.injEq, Outcome.matched.injEq]
    refine ⟨?_, ?_⟩
    · rintro ⟨hurl, hpermanent, hid⟩
      exact ⟨substitutions, hid, hurl, hpermanent, rfl⟩
    · rintro ⟨_, hid, hurl, hpermanent, -⟩
      exact ⟨hurl, hpermanent, hid⟩
  | _ => simp [Trace.decision?]

/-- A rule that was tried and decides nothing is not matched. -/
theorem Trace.outcome_ne_matched {t : Trace} (h : t.decision? = none) (url : Text) (permanent : Bool)
    (substitutions : List Substitution) : t.outcome ≠ .matched url permanent substitutions := by
  intro hmatched
  rw [Trace.decision?_eq_some_iff.2 ⟨substitutions, rfl, hmatched⟩] at h
  cases h

namespace Engine

/-! ## What becomes of a rule -/

/-- What becomes of a rule that is tried. The conditions on a rule come in a fixed order, and each
clause but the last names the first one that fails. -/
inductive Becomes (x : Engine) (collections : Collections) (now : Instant) (path : Text)
    (rule : Rule) : Outcome → Prop where
  /-- the source has no valid expression -/
  | invalidPattern {r : Refused} :
      x.expr? (Pattern.compile rule.source) = .error r →
      Becomes x collections now path rule (.invalidPattern r)
  /-- the expression does not match the path -/
  | noMatch {expr : Expr} :
      x.expr? (Pattern.compile rule.source) = .ok expr → expr.captures? path = none →
      Becomes x collections now path rule .noMatch
  /-- the instant is before the beginning or behind the end of the rule -/
  | inactive {expr : Expr} {values : List Text} {w : Window} :
      x.expr? (Pattern.compile rule.source) = .ok expr → expr.captures? path = some values →
      ((∃ b, rule.start? = some b ∧ b.le now = false) ∨
        ∃ b, rule.stop? = some b ∧ now.le b = false) →
      (Activation.ofRule rule).window now = some w →
      Becomes x collections now path rule (.inactive w)
  /-- the destination has no URL -/
  | unresolved {expr : Expr} {values : List Text} {r : ExpansionError} :
      x.expr? (Pattern.compile rule.source) = .ok expr → expr.captures? path = some values →
      ¬ rule.Overruns now →
      (∀ b, rule.start? = some b → b.le now = true) →
      (∀ b, rule.stop? = some b → now.le b = true) →
      (x.expander collections).expand rule.destination (Pattern.compile rule.source).wildcards
        values = .error r →
      Becomes x collections now path rule (.unresolved r)
  /-- the rule redirects, permanently if neither of its bounds can be read -/
  | matched {e : Expansion} {permanent : Bool} :
      x.Redirects collections now path rule e →
      (permanent = true ↔ rule.start? = none ∧ rule.stop? = none) →
      Becomes x collections now path rule (.matched e.url permanent e.substitutions)

/-- What is shown of a rule that is tried: its number, its source and the expression of that without
the mark of the entry script, and what became of it. -/
structure Shows (x : Engine) (collections : Collections) (now : Instant) (path : Text) (rule : Rule)
    (t : Trace) : Prop where
  /-- the number of the rule -/
  id : t.rule = rule.id
  /-- its source -/
  source : t.source = unmark rule.source
  /-- the expression of its source -/
  expression : t.expression = unmark (Pattern.compile rule.source).expression
  /-- what became of it -/
  outcome : x.Becomes collections now path rule t.outcome

section Rules

variable {x : Engine} {collections : Collections} {now : Instant} {path : Text}

/-- A rule misses its window exactly if it has not begun or has ended. -/
theorem missedWindow?_eq_some_some_iff {rule : Rule} {w : Window} :
    (Activation.ofRule rule).missedWindow? now = some (some w) ↔
      ((∃ b, rule.start? = some b ∧ b.le now = false) ∨
        ∃ b, rule.stop? = some b ∧ now.le b = false) ∧
      (Activation.ofRule rule).window now = some w := by
  have hwindow : (Activation.ofRule rule).missedWindow? now = some (some w) ↔
      (Activation.ofRule rule).missedWindow? now ≠ some none ∧
        (Activation.ofRule rule).window now = some w := by
    rw [Activation.missedWindow?, Activation.window]
    rcases (Activation.ofRule rule).window? now with _ | _ | v
    · simp
    · simp
    · by_cases hsame : v = w
      · subst hsame
        cases hcontains : v.contains now <;> simp [hcontains]
      · simp [hsame]
  rw [hwindow, and_congr_left_iff]
  intro hsome
  have htold : ¬ rule.Overruns now := by
    rw [← Rule.missedWindow?_eq_none_iff, Activation.missedWindow?_eq_none_iff, Activation.overruns]
    rw [Activation.window, Option.join_eq_some_iff] at hsome
    simp [hsome]
  rw [Ne, Rule.missedWindow?_eq_some_none_iff, and_iff_right htold, not_and_or]
  simp only [not_forall, Bool.not_eq_true, exists_prop]

/-- **What becomes of a rule is what its first failing condition says.** -/
theorem becomes_iff {rule : Rule} {o : Outcome} :
    x.Becomes collections now path rule o ↔
      x.outcome collections now path rule (Pattern.compile rule.source) = some o := by
  refine ⟨?_, ?_⟩
  · intro h
    cases h with
    | invalidPattern hexpr => simp [outcome, hexpr]
    | noMatch hexpr hvalues => simp [outcome, hexpr, hvalues]
    | inactive hexpr hvalues hbounds hwindow =>
      have hmissed := missedWindow?_eq_some_some_iff.2 ⟨hbounds, hwindow⟩
      simp [outcome, hexpr, hvalues, hmissed]
    | unresolved hexpr hvalues htold hstart hstop hexpand =>
      have hactive := Rule.missedWindow?_eq_some_none_iff.2 ⟨htold, hstart, hstop⟩
      simp [outcome, hexpr, hvalues, hactive, hexpand]
    | @matched e permanent hredirects hpermanent =>
      have hsame : permanent = (Activation.ofRule rule).isPermanent :=
        Bool.eq_iff_iff.2 (hpermanent.trans Activation.isPermanent_ofBounds.symm)
      exact outcome_eq_matched_iff.2 ⟨e, hredirects, rfl, hsame, rfl⟩
  · intro h
    rcases hexpr : x.expr? (Pattern.compile rule.source) with r | expr
    · simp only [outcome, hexpr, Option.some.injEq] at h
      exact h ▸ .invalidPattern hexpr
    rcases hvalues : expr.captures? path with _ | values
    · simp only [outcome, hexpr, hvalues, Option.some.injEq] at h
      exact h ▸ .noMatch hexpr hvalues
    rcases hmissed : (Activation.ofRule rule).missedWindow? now with _ | _ | w
    · simp [outcome, hexpr, hvalues, hmissed] at h
    · obtain ⟨htold, hstart, hstop⟩ := Rule.missedWindow?_eq_some_none_iff.1 hmissed
      rcases hexpand : (x.expander collections).expand rule.destination
          (Pattern.compile rule.source).wildcards values with r | e
      · simp only [outcome, hexpr, hvalues, hmissed, hexpand, Option.some.injEq] at h
        exact h ▸ .unresolved hexpr hvalues htold hstart hstop hexpand
      · have hredirects : x.Redirects collections now path rule e :=
          ⟨expr, values, hexpr, hvalues, htold, hstart, hstop, hexpand⟩
        have hmatched := outcome_eq_matched_iff.2 ⟨e, hredirects, rfl, rfl, rfl⟩
        obtain rfl := Option.some.inj (hmatched.symm.trans h)
        exact .matched hredirects Activation.isPermanent_ofBounds
    · obtain ⟨hbounds, hwindow⟩ := missedWindow?_eq_some_some_iff.1 hmissed
      simp only [outcome, hexpr, hvalues, hmissed, Option.some.injEq] at h
      exact h ▸ .inactive hexpr hvalues hbounds hwindow

/-- A rule that is tried is shown as it is. -/
theorem shows_of_tried {rule : Rule} {t : Trace} (h : x.tried collections now path rule = some t) :
    x.Shows collections now path rule t := by
  obtain ⟨hid, hsource, hexpression, houtcome⟩ := tried_eq_some_iff.1 h
  exact ⟨hid, hsource, hexpression, becomes_iff.2 houtcome⟩

/-- Rules that are tried one after the other are shown in the order of the table. -/
theorem shows_of_getElem? {rules : List Rule} {ts : List Trace}
    (h : List.Forall₂ (fun rule t => x.tried collections now path rule = some t) rules ts) {j : Nat}
    {t : Trace} (ht : ts[j]? = some t) :
    ∃ rule, rules[j]? = some rule ∧ x.Shows collections now path rule t := by
  induction h generalizing j with
  | nil => cases ht
  | @cons rule _ rules ts hfirst _ ih =>
    cases j with
    | zero =>
      obtain rfl := Option.some.inj ht
      exact ⟨rule, rfl, shows_of_tried hfirst⟩
    | succ j => exact ih ht

end Rules

/-! ## What a trace shows of a decision -/

/-- How a diagnosis reports the decision of a live pass: a page of the legacy site that is redirected
to is reported with the accepted status of its answer, and any other decision stays the same. -/
inductive ReportedAs (x : Engine) : Decision → Decision → Prop where
  /-- a redirect to the legacy site -/
  | legacy {l : Legacy} {url : Text} {status : UInt16} :
      x.legacy = some l → l.probe url = some status → status ∈ l.accepted →
      ReportedAs x (.redirect url false none) (.wouldRedirect url status)
  /-- any other decision -/
  | same {decision : Decision} :
      (∀ url, decision ≠ .redirect url false none) → ReportedAs x decision decision

/-- What a trace shows of a decision. -/
structure Explains (x : Engine) (rules : List Rule) (collections : Collections) (request : Request)
    (now : Instant) (decision : Decision) (tried : List Trace) : Prop where
  /-- no rule is tried for the bare entry script -/
  entry : Target.ofUri x.root request.uri = .entry → tried = []
  /-- if a rule decides, the rules up to that one are tried -/
  decided : ∀ url permanent id, decision = .redirect url permanent (some id) →
    ∃ path i rule, Target.ofUri x.root request.uri = .path path ∧
      x.DecidedBy collections now path rules i ∧ rules[i]? = some rule ∧ rule.id = id ∧
        tried.length = i + 1
  /-- if no rule decides, all rules are tried -/
  undecided : Target.ofUri x.root request.uri ≠ .entry →
    (∀ url permanent id, decision ≠ .redirect url permanent (some id)) →
      tried.length = rules.length
  /-- the rules are shown in the order of the table -/
  shows : ∀ (path : Text) (j : Nat) (t : Trace), Target.ofUri x.root request.uri = .path path →
    tried[j]? = some t →
      ∃ rule : Rule, rules[j]? = some rule ∧ x.Shows collections now path rule t
  /-- the last rule is matched exactly if the decision is to redirect by it -/
  last : ∀ url permanent id, decision = .redirect url permanent (some id) ↔
    ∃ t substitutions, tried.getLast? = some t ∧ t.rule = id ∧
      t.outcome = .matched url permanent substitutions
  /-- no rule before the last is matched -/
  earlier : ∀ t ∈ tried.dropLast, ∀ url permanent substitutions,
    t.outcome ≠ .matched url permanent substitutions

section Passes

variable {x : Engine} {rules : List Rule} {collections : Collections} {request : Request}
  {now : Instant} {path : Text} {diagnostic : Bool}

/-- The decision when no rule decides is not that of a rule. -/
theorem fallback_ne_rule (url : Text) (permanent : Bool) (id : RuleId) :
    x.fallback diagnostic path ≠ .redirect url permanent (some id) := by
  rw [fallback]
  cases x.legacy.bind fun l => l.check path with
  | none => simp
  | some hit => cases diagnostic <;> simp

/-- The empty trace explains the decision on the bare entry script. -/
theorem explains_entry (h : Target.ofUri x.root request.uri = .entry) :
    x.Explains rules collections request now (.redirect x.root true none) [] := by
  refine ⟨fun _ => rfl, fun url permanent id hdecision => ?_, fun hne => absurd h hne,
    fun path j t hpath => ?_, fun url permanent id => ?_, by simp⟩
  · cases hdecision
  · rw [h] at hpath
    cases hpath
  · simp

/-- A rule that leaves a trace is not matched. -/
theorem Leaves.outcome_ne_matched {ts : List Trace}
    (h : List.Forall₂ (x.Leaves collections now path) rules ts) :
    ∀ t ∈ ts, ∀ url permanent substitutions, t.outcome ≠ .matched url permanent substitutions := by
  induction h with
  | nil => simp
  | cons hfirst _ ih => exact List.forall_mem_cons.2 ⟨Trace.outcome_ne_matched hfirst.2, ih⟩

/-- The trace that ends with the rule that decides explains the decision. -/
theorem explains_rule {i : Nat} {rule : Rule} {ts : List Trace} {t : Trace} {url : Text}
    {permanent : Bool} (h : Target.ofUri x.root request.uri = .path path)
    (hdecided : x.DecidedBy collections now path rules i) (hrule : rules[i]? = some rule)
    (hts : List.Forall₂ (x.Leaves collections now path) (rules.take i) ts)
    (ht : x.tried collections now path rule = some t)
    (hdecision : t.decision? = some (.redirect url permanent (some rule.id))) :
    x.Explains rules collections request now (.redirect url permanent (some rule.id)) (ts ++ [t]) := by
  have htried : List.Forall₂ (fun rule t => x.tried collections now path rule = some t)
      (rules.take (i + 1)) (ts ++ [t]) := by
    rw [List.take_add_one, hrule]
    exact List.rel_append (hts.imp fun _ _ hleaves => hleaves.1) (.cons ht .nil)
  refine ⟨fun hentry => ?_, fun u p id heq => ?_, fun _ hnone => ?_, fun p j t' hp ht' => ?_,
    fun u p id => ?_, fun t' ht' => ?_⟩
  · rw [h] at hentry
    cases hentry
  · obtain ⟨-, -, hid⟩ := Decision.redirect.inj heq
    have hi := (List.getElem?_eq_some_iff.1 hrule).1
    refine ⟨path, i, rule, h, hdecided, hrule, Option.some.inj hid, ?_⟩
    rw [← htried.length_eq, List.length_take]
    omega
  · exact absurd rfl (hnone url permanent rule.id)
  · rw [h] at hp
    obtain rfl := Target.path.inj hp
    obtain ⟨r, hr, hshows⟩ := shows_of_getElem? htried ht'
    rw [List.getElem?_take] at hr
    split at hr
    · exact ⟨r, hr, hshows⟩
    · cases hr
  · rw [List.getLast?_concat]
    refine ⟨fun heq => ?_, ?_⟩
    · rw [heq] at hdecision
      obtain ⟨substitutions, hid, houtcome⟩ := Trace.decision?_eq_some_iff.1 hdecision
      exact ⟨t, substitutions, rfl, hid, houtcome⟩
    · rintro ⟨t', substitutions, ht', hid, houtcome⟩
      obtain rfl := Option.some.inj ht'
      have hother := Trace.decision?_eq_some_iff.2 ⟨substitutions, hid, houtcome⟩
      exact Option.some.inj (hdecision.symm.trans hother)
  · rw [List.dropLast_concat] at ht'
    exact Leaves.outcome_ne_matched hts t' ht'

/-- The trace of all rules explains the decision of none. -/
theorem explains_fallback {ts : List Trace} {other : Text}
    (h : Target.ofUri x.root request.uri = .path path)
    (hts : List.Forall₂ (x.Leaves collections now path) rules ts) :
    x.Explains rules collections request now (x.fallback diagnostic other) ts := by
  refine ⟨fun hentry => ?_, fun url permanent id hdecision => ?_, fun _ _ => hts.length_eq.symm,
    fun p j t hp ht => ?_, fun url permanent id => ?_,
    fun t ht => Leaves.outcome_ne_matched hts t (List.dropLast_subset _ ht)⟩
  · rw [h] at hentry
    cases hentry
  · exact absurd hdecision (fallback_ne_rule url permanent id)
  · rw [h] at hp
    obtain rfl := Target.path.inj hp
    exact shows_of_getElem? (hts.imp fun _ _ hleaves => hleaves.1) ht
  · refine ⟨fun hdecision => absurd hdecision (fallback_ne_rule url permanent id), ?_⟩
    rintro ⟨t, substitutions, ht, -, houtcome⟩
    exact absurd houtcome
      (Leaves.outcome_ne_matched hts t (List.mem_of_getLast? ht) url permanent substitutions)

/-- A page of the legacy site is reported where it would be redirected to. -/
theorem reportedAs_fallback :
    x.ReportedAs (x.fallback false path) (x.fallback true path) := by
  rcases hlegacy : x.legacy with _ | l
  · rw [fallback_unknown hlegacy, fallback_unknown hlegacy]
    exact .same (by simp)
  · by_cases hstatus : ∀ status ∈ l.accepted, l.probe (l.url path) ≠ some status
    · rw [fallback_refused hlegacy hstatus, fallback_refused hlegacy hstatus]
      exact .same (by simp)
    · push Not at hstatus
      obtain ⟨status, haccepted, hprobe⟩ := hstatus
      rw [fallback_accepted hlegacy hprobe haccepted, fallback_reported hlegacy hprobe haccepted]
      exact .legacy hlegacy hprobe haccepted

/-- A diagnosis breaks down where the live pass does. -/
theorem pass_diagnostic_eq_none_iff : x.pass true rules collections request now = none ↔
    x.pass false rules collections request now = none := by
  rw [pass_eq_none_iff, pass_eq_none_iff]

/-- A diagnosis reports and explains the decision of the live pass. -/
theorem exists_diagnosis {live : Pass} (hlive : x.pass false rules collections request now = some live) :
    ∃ diagnosis, x.pass true rules collections request now = some diagnosis ∧
      x.ReportedAs live.decision diagnosis.decision ∧
      x.Explains rules collections request now live.decision diagnosis.trace := by
  rcases htarget : Target.ofUri x.root request.uri with _ | path
  · rw [pass_entry htarget] at hlive
    obtain rfl := Option.some.inj hlive
    exact ⟨_, pass_entry htarget, .same (by simp), explains_entry htarget⟩
  rcases x.exists_course collections now path rules with
    ⟨i, hdecided⟩ | ⟨i, hbroken⟩ | hpassed
  · obtain ⟨rule, hrule, e, he⟩ := hdecided.1
    obtain ⟨ts, t, hts, ht, hdecision, hpass⟩ := pass_rule htarget hdecided hrule he
    obtain rfl := Option.some.inj ((hpass _).symm.trans hlive)
    exact ⟨_, hpass true, .same (by simp), explains_rule htarget hdecided hrule hts ht hdecision⟩
  · rw [pass_broken htarget hbroken] at hlive
    cases hlive
  · obtain ⟨ts, hts, hpass⟩ := pass_fallback htarget hpassed
    obtain rfl := Option.some.inj ((hpass _).symm.trans hlive)
    exact ⟨_, hpass true, reportedAs_fallback, explains_fallback htarget hts⟩

/-- **A diagnosis and a live pass agree.** Where there is an instant one hour ahead there is a live pass,
and a diagnosis breaks down exactly where the live pass does. It reports the decision of the live pass,
and its trace explains that decision. In a session it goes through the same books as a live pass, and it
leaves them as they are, and the session too. -/
theorem diagnose_explains (x : Engine) (rules : List Rule) (collections : Collections)
    (request : Request) (now : Instant) :
    (now.plusHour? ≠ none → ∃ live, x.pass false rules collections request now = some live) ∧
      (x.pass true rules collections request now = none ↔
        x.pass false rules collections request now = none) ∧
      (∀ live, x.pass false rules collections request now = some live →
        ∃ diagnosis, x.pass true rules collections request now = some diagnosis ∧
          x.ReportedAs live.decision diagnosis.decision ∧
          x.Explains rules collections request now live.decision diagnosis.trace) ∧
      ∀ (σ : Type) (k : Keeper σ) (books : σ),
        (x.diagnostic = false →
          ((⟨x, rules, collections⟩ : Session).step k books (.resolve request now)).1 =
            ((x.pass false rules collections request now).map .decided).getD .broken) ∧
        (⟨x, rules, collections⟩ : Session).step k books (.diagnose request now) =
          (((x.pass true rules collections request now).map .diagnosed).getD .broken,
            ⟨x, rules, collections⟩, books) := by
  refine ⟨exists_pass, pass_diagnostic_eq_none_iff, fun live => exists_diagnosis, fun σ k books => ?_⟩
  refine ⟨fun h => ?_, ?_⟩
  · simp only [Session.step, h, Session.serve_fst]
  · simp only [Session.step, Session.serve_fst, Session.serve_diagnostic]

end Passes

end Engine

end Detour
