import Detour.Activation
import Detour.Config.Basic
import Detour.Decision
import Detour.Request.Basic
import Detour.Rewrite.Template

/-!
# Passes over the rules

A request is matched against the rules in order, and the first rule that matches, is active and whose
destination has a URL decides. A rule that falls short of any of these is passed over. If no rule
decides, the legacy site is asked. `Engine.pass` gives the decision together with what became of every
rule that was tried:

* `Engine.outcome` is what becomes of one rule;
* `Engine.scan` is the trace of a table, which ends with the rule that decides;
* `Engine.note` is what a pass leaves in the books, nothing in the diagnostic mode.
-/

namespace Detour

/-- What became of a rule. -/
inductive Outcome where
  /-- its source has no valid expression -/
  | invalidPattern (e : Refused)
  /-- its source does not match the path -/
  | noMatch
  /-- it is not active at this instant, which its window misses -/
  | inactive (w : Window)
  /-- its destination has no URL -/
  | unresolved (e : ExpansionError)
  /-- it redirects to a URL, with what became of the captured values -/
  | matched (url : Text) (permanent : Bool) (substitutions : List Substitution)
deriving Repr, DecidableEq

/-- A rule that was tried. Nothing in it shows the mark of the entry script. -/
structure Trace where
  /-- the number of the rule -/
  rule : RuleId
  /-- its source -/
  source : Text
  /-- the expression of its source -/
  expression : Text
  /-- what became of it -/
  outcome : Outcome
deriving Repr, DecidableEq

/-- The decision of a rule that was tried, if it decides. -/
def Trace.decision? (t : Trace) : Option Decision :=
  match t.outcome with
  | .matched url permanent _ => some (.redirect url permanent (some t.rule))
  | _ => none

/-- A pass over the rules. -/
structure Pass where
  /-- the path that was matched, or the request itself if it was for the bare entry script -/
  path : Text
  /-- the rules that were tried -/
  trace : List Trace
  /-- what was decided -/
  decision : Decision
  /-- the URL that the legacy site was asked for -/
  asked : Option Text
deriving Repr, DecidableEq

/-- What a pass leaves in the books. -/
inductive Note where
  /-- a hit of a rule -/
  | hit (id : RuleId)
  /-- a missing page -/
  | miss
  /-- nothing -/
  | nothing
deriving Repr, DecidableEq

/-- How the requests of a site are resolved. -/
structure Engine where
  /-- the path that the site is mounted at -/
  root : Text
  /-- the URL put in front of destinations without a scheme -/
  site : Text
  /-- whether every pass is diagnostic -/
  diagnostic : Bool
  /-- whether requests that nothing is found for are logged -/
  logMisses : Bool
  /-- how captured values are cleaned -/
  cleaner : Cleaner
  /-- the legacy site -/
  legacy : Option Legacy
  /-- how pages and selectors are found -/
  directory : Directory
  /-- how URLs are read -/
  [urls : UrlReader]
  /-- how large the expressions of sources may be -/
  [limits : Limits]

namespace Engine

section Configured

variable [Dictionary] [UrlReader] [Limits]

/-- The engine of a configuration, with a legacy site of its own. -/
def ofConfig (c : Config) (legacy : Option Legacy) (directory : Directory) : Engine :=
  ⟨c.handling.root, c.handling.site, c.handling.diagnostic, c.handling.logMisses, c.cleaner.cleaner,
    legacy, directory⟩

/-- The engine of a configuration, with the configured legacy site that answers as `probe` says. -/
def ofConfigured (c : Config) (probe : Text → Option UInt16) (directory : Directory) : Engine :=
  ofConfig c (c.legacy.legacy? probe) directory

end Configured

/-- What destinations are expanded with. -/
def expander (x : Engine) (collections : Collections) : Expander where
  cleaner := x.cleaner
  collections := collections
  directory := x.directory
  site := x.site
  urls := x.urls

/-- The expression of a pattern, if it is accepted. -/
def expr? (x : Engine) (pattern : Pattern) : Except Refused Expr :=
  have := x.limits
  pattern.expr?

/-- What becomes of a rule whose source has this compiled form; `none` if the pass breaks down over its
window. -/
def outcome (x : Engine) (collections : Collections) (now : Instant) (path : Text) (rule : Rule)
    (pattern : Pattern) : Option Outcome :=
  match x.expr? pattern with
  | .error e => some (.invalidPattern e)
  | .ok expr =>
    match expr.captures? path with
    | none => some .noMatch
    | some values =>
      let activation := Activation.ofRule rule
      match activation.missedWindow? now with
      | none => none
      | some (some w) => some (.inactive w)
      | some none =>
        match (x.expander collections).expand rule.destination pattern.wildcards values with
        | .error e => some (.unresolved e)
        | .ok e => some (.matched e.url activation.isPermanent e.substitutions)

/-- A rule after it was tried. -/
def tried (x : Engine) (collections : Collections) (now : Instant) (path : Text) (rule : Rule) :
    Option Trace :=
  let pattern := Pattern.compile rule.source
  (x.outcome collections now path rule pattern).map fun outcome =>
    ⟨rule.id, unmark rule.source, unmark pattern.expression, outcome⟩

/-- The rules that are tried, up to the one that decides; `none` if the pass breaks down before that. -/
def scan (x : Engine) (collections : Collections) (now : Instant) (path : Text) :
    List Rule → Option (List Trace)
  | [] => some []
  | rule :: rules =>
    match x.tried collections now path rule with
    | none => none
    | some t =>
      if t.decision?.isSome then some [t] else (x.scan collections now path rules).map (t :: ·)

/-- The decision when no rule decides: a page that the legacy site accepts is redirected to, or only
reported in a diagnostic pass. -/
def fallback (x : Engine) (diagnostic : Bool) (path : Text) : Decision :=
  match x.legacy.bind fun l => l.check path with
  | none => .noMatch
  | some hit =>
    if diagnostic then .wouldRedirect hit.url hit.status else .redirect hit.url false none

/-- The pass that has tried some rules on a path: the last of them decides, or else the legacy site is
asked. -/
def conclude (x : Engine) (diagnostic : Bool) (path : Text) (trace : List Trace) : Pass :=
  match trace.findSome? Trace.decision? with
  | some decision => ⟨unmark path, trace, decision, none⟩
  | none =>
    ⟨unmark path, trace, x.fallback diagnostic (unmark path), x.legacy.map fun l => l.url (unmark path)⟩

/-- A pass for a request at an instant; `none` if it breaks down. -/
def pass (x : Engine) (diagnostic : Bool) (rules : List Rule) (collections : Collections)
    (request : Request) (now : Instant) : Option Pass :=
  match Target.ofUri x.root request.uri with
  | .entry => some ⟨unmark request.uri, [], .redirect x.root true none, none⟩
  | .path path => (x.scan collections now path rules).map (x.conclude diagnostic path)

/-- What a pass with some decision leaves in the books: a hit of the rule that redirects, or a missing
page if these are logged. -/
def note (x : Engine) (diagnostic : Bool) (decision : Decision) : Note :=
  if diagnostic then .nothing
  else match decision with
    | .redirect _ _ (some id) => .hit id
    | .noMatch => if x.logMisses then .miss else .nothing
    | _ => .nothing

/-- In the diagnostic mode the books are left alone. -/
theorem note_diagnostic {x : Engine} {decision : Decision} : x.note true decision = .nothing := rfl

end Engine

end Detour
