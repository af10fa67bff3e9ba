import Detour.Text.Basic

/-!
# Requests

A request that the site has no page for.
-/

namespace Detour

/-- A request without a page. -/
structure Request where
  /-- the path with its query, as it was received -/
  uri : Text
  /-- the page that led to it -/
  referrer : Option Text
  /-- the program that made it -/
  userAgent : Option Text
deriving Repr, DecidableEq

end Detour
