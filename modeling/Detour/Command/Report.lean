import Detour.Json.Basic
import Detour.Session

/-!
# Reports

What commands print: decisions, diagnoses, compiled patterns and hits, each as one JSON document.
-/

namespace Detour

namespace Report

/-- The number of a rule. -/
def ofRule (id : RuleId) : Json := .ofNat id.toNat

/-- An instant. -/
def ofInstant (t : Instant) : Json := .ofText t.write

/-- The members for a decision. -/
def decisionMembers : Decision → List (String × Json)
  | .redirect url permanent rule =>
    [("kind", .ofText "redirect".toList), ("url", .ofText url), ("permanent", .bool permanent),
      ("matched_rule", .ofOption ofRule rule)]
  | .wouldRedirect url status =>
    [("kind", .ofText "would_redirect".toList), ("url", .ofText url), ("status", .ofNat status.toNat)]
  | .noMatch => [("kind", .ofText "no_match".toList)]

/-- Members in the order of their keys. -/
def byKey (members : List (String × Json)) : List (String × Json) :=
  members.mergeSort fun a b => a.1 ≤ b.1

/-- What became of a captured value. -/
def substitution (s : Substitution) : Json :=
  .ofMembers [("name", .ofText s.name), ("captured", .ofText s.captured),
    ("injected", .ofText s.injected)]

/-- The members for what became of a rule. An end that is not stored is not shown. -/
def outcomeMembers : Outcome → List (String × Json)
  | .invalidPattern e => [("outcome", .ofText "invalid_pattern".toList), ("error", .ofText e.message)]
  | .noMatch => [("outcome", .ofText "no_match".toList)]
  | .inactive w =>
    [("outcome", .ofText "inactive".toList), ("start", ofInstant w.start),
      ("end", if w.openEnded then .null else ofInstant w.stop)]
  | .unresolved e => [("outcome", .ofText "unresolved".toList), ("error", .ofText e.message)]
  | .matched url permanent substitutions =>
    [("outcome", .ofText "matched".toList), ("url", .ofText url), ("permanent", .bool permanent),
      ("substitutions", .array (substitutions.map substitution))]

/-- A rule that was tried. -/
def trace (t : Trace) : Json :=
  .ofMembers ([("rule", ofRule t.rule), ("source", .ofText t.source),
    ("expression", .ofText t.expression)] ++ outcomeMembers t.outcome)

/-- A diagnosis. -/
def diagnosis (p : Pass) : Json :=
  .ofMembers [("path", .ofText p.path), ("decision", .ofMembers (decisionMembers p.decision)),
    ("trace", .array (p.trace.map trace))]

/-- A decision with its status. -/
def decision (d : Decision) : Json :=
  .ofMembers [("decision", .ofMembers (byKey (decisionMembers d))),
    ("status", .ofNat d.status.toNat)]

/-- An answer of a session. -/
def answer : Answer → Json
  | .decided p => decision p.decision
  | .diagnosed p => diagnosis p
  | .broken => .null
  | .mode enabled => .bool enabled
  | .size n => .ofNat n

/-- A wildcard of a pattern. -/
def wildcard (w : Wildcard) : Json :=
  .ofMembers [("name", .ofText w.name), ("raw", .bool w.raw), ("type", .ofText w.kind.name)]

/-- The stages of a source pattern, without the mark of the entry script. -/
def pattern (source : Text) : Json :=
  let p := Pattern.compile source
  .ofMembers [("captures", .array (p.wildcards.map wildcard)), ("escaped", .ofText (unmark p.escaped)),
    ("expanded", .ofText (unmark p.expanded)), ("expression", .ofText (unmark p.expression)),
    ("source", .ofText source)]

/-- The hits of all rules. -/
def hits (l : Ledger) : Json :=
  .array (l.records.map fun (id, r) =>
    .ofMembers [("hits", .ofNat r.hits.toNat), ("id", ofRule id), ("last_hit", ofInstant r.lastHit)])

end Report

end Detour
