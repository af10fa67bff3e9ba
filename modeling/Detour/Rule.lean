import Detour.Text.Digits

/-!
# Redirect rules

A rule redirects the requests that its source pattern matches to the URL that its destination stands
for, within the bounds of its activation. Rules are only read; hits are counted in a ledger of their
own.
-/

namespace Detour

/-- The number of a rule. -/
abbrev RuleId := UInt64

/-- The number of a rule as it is shown. -/
def RuleId.shown (id : RuleId) : Text := '#' :: writeNat id.toNat

/-- A stored redirect rule. -/
structure Rule where
  /-- the number of the rule -/
  id : RuleId
  /-- the source pattern -/
  source : Text
  /-- the destination -/
  destination : Text
  /-- the stored beginning of its activation -/
  start : Option Text
  /-- the stored end of its activation -/
  stop : Option Text
  /-- the stored number of hits -/
  hits : UInt64
  /-- the stored instant of the last hit -/
  lastHit : Option Text
deriving Repr, DecidableEq

/-- A rule that is always active and has no hits. -/
def Rule.new (id : RuleId) (source destination : Text) : Rule :=
  ⟨id, source, destination, none, none, 0, none⟩

end Detour
