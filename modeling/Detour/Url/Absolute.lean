import Detour.Url.Host
import Detour.Url.Reader

/-!
# Absolute URLs

The reader of URLs that the program has at hand. Blanks and controls around a URL are passed over, and
so are tabs and line ends inside it. Behind the scheme, the schemes of the web need a host, slashes or
not; a file may have one; and any other scheme has one only behind two slashes. What follows the host
is never refused.
-/

namespace Detour

namespace Url

/-- A text without blanks and controls around it and without tabs and line ends inside it. -/
def tidy (s : Text) : Text :=
  (Text.trimBoth (fun c => c.toNat ≤ 32) s).filter fun c => c != '\t' && c != '\n' && c != '\r'

/-- Whether a character may stand in a scheme behind the first letter. -/
def isSchemeChar (c : Char) : Bool := c.isAlphanum || c == '+' || c == '-' || c == '.'

/-- The scheme at the beginning of a text in small letters, and the text behind its colon. -/
def splitScheme? (s : Text) : Option (Text × Text) :=
  let scheme := s.takeWhile isSchemeChar
  match s.drop scheme.length with
  | ':' :: rest =>
    if scheme.head?.any Char.isAlpha then some (scheme.map Char.toLower, rest) else none
  | _ => none

/-- The schemes of the web but for files. -/
def webSchemes : List Text :=
  ["http".toList, "https".toList, "ws".toList, "wss".toList, "ftp".toList]

/-- Whether a character is a slash of either direction. -/
def isSlash (c : Char) : Bool := c == '/' || c == '\\'

/-- The host in front of a port, and the text behind it; colons in square brackets belong to the
host. -/
def splitHost (inside : Bool) : Text → Text × Text
  | [] => ([], [])
  | c :: s =>
    if c = ':' && !inside then ([], c :: s)
    else
      let (host, rest) := splitHost (c == '[' || (inside && c != ']')) s
      (c :: host, rest)

/-- Whether a text is a port with its colon, or empty. -/
def isPort : Text → Bool
  | [] => true
  | _ :: port =>
    let digits := port.takeWhile (· != '\\')
    digits.all Char.isDigit && decimal digits ≤ 65535

/-- The text before the last `@` if there is one, and the text behind it. -/
def splitUser (s : Text) : Option Text × Text :=
  match (Text.split '@' s).reverse with
  | last :: first :: rest => (some (Text.join ['@'] (first :: rest).reverse), last)
  | _ => (none, s)

/-- Whether a text behind two slashes begins with an acceptable authority: user, host and port. -/
def hasAuthority (web : Bool) (s : Text) : Bool :=
  let authority := s.takeWhile fun c => !(c == '/' || c == '?' || c == '#' || (web && c == '\\'))
  let (user, place) := splitUser authority
  let (host, port) := splitHost false place
  if user = some [] && place.isEmpty && authority.length < s.length then false
  else if web then !host.isEmpty && isHost host && isPort port
  else if host.isEmpty then port.isEmpty && (user.getD []).all (· == ':') && (user.getD []).length ≤ 1
  else isOpaqueHost host && isPort port

/-- Whether a text is a drive letter with its colon or bar. -/
def isDrive : Text → Bool
  | [c, d] => c.isAlpha && (d == ':' || d == '|')
  | _ => false

/-- Whether the text behind the scheme of a file is acceptable: behind two slashes there may be a
host. -/
def isFile : Text → Bool
  | a :: b :: s =>
    if isSlash a && isSlash b then
      let host := s.takeWhile fun c => !(isSlash c || c == '?' || c == '#')
      host.isEmpty || isDrive host || isHost host
    else true
  | _ => true

/-- The scheme of a text in small letters, if the text is an absolute URL. -/
def scheme? (s : Text) : Option Text :=
  match splitScheme? (tidy s) with
  | none => none
  | some (scheme, rest) =>
    let valid :=
      if webSchemes.contains scheme then hasAuthority true (rest.dropWhile isSlash)
      else if scheme = "file".toList then isFile rest
      else match rest with
        | '/' :: '/' :: rest => hasAuthority false rest
        | _ => true
    if valid then some scheme else none

/-- The reader by these rules. -/
instance reader : UrlReader := ⟨scheme?⟩

end Url

end Detour
