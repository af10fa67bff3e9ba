import Detour.Rule

/-!
# Decisions

What a site is told to do with a request that it cannot answer.
-/

namespace Detour

/-- The outcome of a pass over the rules. -/
inductive Decision where
  /-- to redirect to a URL, by a rule or without one -/
  | redirect (url : Text) (permanent : Bool) (rule : Option RuleId)
  /-- not to redirect, although the legacy site would answer with this status -/
  | wouldRedirect (url : Text) (status : UInt16)
  /-- to say that there is no such page -/
  | noMatch
deriving Repr, DecidableEq

namespace Decision

/-- Whether a decision is to redirect. -/
def isRedirect : Decision → Bool
  | redirect _ _ _ => true
  | _ => false

/-- The URL of a decision. -/
def url? : Decision → Option Text
  | redirect url _ _ => some url
  | wouldRedirect url _ => some url
  | noMatch => none

/-- The status of the answer to the request. -/
def status : Decision → UInt16
  | redirect _ true _ => 301
  | redirect _ false _ => 302
  | wouldRedirect _ _ | noMatch => 404

end Decision

end Detour
