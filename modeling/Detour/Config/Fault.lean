import Detour.Config.Basic
import Detour.Url.Reader

/-!
# Faults of configurations

A configuration may be well formed and still make no sense. `Config.faults` lists all faults in the
order of the settings; a configuration is valid if there are none.
-/

namespace Detour

/-- Something wrong with a configuration. -/
inductive Fault where
  /-- the mount path does not begin and end with a slash -/
  | rootUrl (s : Text)
  /-- the URL of the site is not absolute -/
  | siteUrl (s : Text)
  /-- the URL of the legacy site is not that of a site -/
  | legacyDomain (s : Text)
  /-- there is no such status -/
  | statusCode (n : UInt16)
  /-- no time for an answer of the legacy site -/
  | zeroTimeout
deriving Repr, DecidableEq

/-- The words for a fault. -/
def Fault.message : Fault → Text
  | rootUrl s => "engine.root_url `".toList ++ s ++ "` must start and end with '/'".toList
  | siteUrl s => "engine.site_url `".toList ++ s ++ "` is not an absolute URL".toList
  | legacyDomain s => "legacy.domain `".toList ++ s ++ "` is not an absolute http(s) URL".toList
  | statusCode n =>
    "legacy.accepted_status_codes contains invalid status ".toList ++ writeNat n.toNat
  | zeroTimeout => "legacy.timeout_secs must be greater than zero".toList

namespace Config

/-- Whether a mount path begins and ends with a slash. -/
def isRoot (s : Text) : Bool := s.head? == some '/' && s.getLast? == some '/'

/-- Whether a number is the status of an answer. -/
def isStatus (n : UInt16) : Bool := 100 ≤ n && n ≤ 599

section Faults

variable [urls : UrlReader]

/-- The faults of the way in which requests are handled. -/
def handlingFaults (h : Handling) : List Fault :=
  let site := Text.trim h.site
  (if isRoot h.root then [] else [.rootUrl h.root]) ++
    (if site.isEmpty || urls.isAbsolute site then [] else [.siteUrl site])

/-- The faults of what is known of the legacy site. -/
def legacyFaults (l : LegacySettings) : List Fault :=
  (if l.isEnabled && !urls.isSite l.trimmed then [.legacyDomain l.trimmed] else []) ++
    (l.accepted.filter fun n => !isStatus n).map .statusCode ++
    (if l.timeout = 0 then [.zeroTimeout] else [])

/-- The faults of a configuration. -/
def faults (c : Config) : List Fault := handlingFaults c.handling ++ legacyFaults c.legacy

end Faults

/-- The words for some faults. -/
def refusal (fs : List Fault) : Text :=
  "Validation failed: ".toList ++ Text.join ", ".toList (fs.map Fault.message)

end Config

end Detour
