import Detour.Text.Basic

/-!
# Readers of URLs

Which texts are absolute URLs, and what their schemes are, is up to a `UrlReader`. What is said of
destinations and configurations holds for every one.
-/

namespace Detour

/-- How URLs are read. -/
class UrlReader where
  /-- the scheme of a text in small letters, if the text is an absolute URL -/
  scheme? : Text → Option Text

namespace UrlReader

variable (urls : UrlReader)

/-- Whether a text is an absolute URL. -/
def isAbsolute (s : Text) : Bool := (urls.scheme? s).isSome

/-- Whether a text is an absolute URL of a site on the web. -/
def isSite (s : Text) : Bool :=
  match urls.scheme? s with
  | some scheme => scheme = "http".toList || scheme = "https".toList
  | none => false

end UrlReader

end Detour
