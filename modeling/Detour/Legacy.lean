import Detour.Request.Target

/-!
# The legacy site

The site from before may still have the page that a request asks for. It is asked for the status of
the path under its own domain, and if the status is one of the accepted ones, the request is sent
there. An answer that fails counts as a status that is not accepted.
-/

namespace Detour

/-- The legacy site. -/
structure Legacy where
  /-- the URL of its root -/
  domain : Text
  /-- the statuses that stand for an existing page -/
  accepted : List UInt16
  /-- the status that it answers for a URL, if it answers -/
  probe : Text → Option UInt16

/-- A page of the legacy site. -/
structure LegacyHit where
  /-- its URL -/
  url : Text
  /-- its status -/
  status : UInt16
deriving Repr, DecidableEq

namespace Legacy

/-- The statuses that are accepted unless others are given. -/
def usualStatuses : List UInt16 := [200, 301, 302]

/-- The URL of a path under the domain, with one slash between them. -/
def url (l : Legacy) (path : Text) : Text :=
  Text.trimEnd (· == '/') l.domain ++ ['/'] ++ Target.withoutSlashes path

/-- Whether a status stands for an existing page. -/
def accepts (l : Legacy) (status : UInt16) : Bool := l.accepted.contains status

/-- The page of the legacy site for a path. -/
def check (l : Legacy) (path : Text) : Option LegacyHit :=
  match l.probe (l.url path) with
  | some status => if l.accepts status then some ⟨l.url path, status⟩ else none
  | none => none

end Legacy

end Detour
