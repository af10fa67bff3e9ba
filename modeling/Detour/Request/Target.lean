import Detour.Entry

/-!
# Request targets

What a request asks for, once leading slashes and the path that the site is mounted at are taken off:
the bare entry script, which is answered with the root of the site, or a path to be matched. A path
that continues behind the entry script has the script marked.
-/

namespace Detour

/-- What a request asks for. -/
inductive Target where
  /-- the bare entry script -/
  | entry
  /-- a path to match against the rules -/
  | path (p : Text)
deriving Repr, DecidableEq

namespace Target

/-- A text without its leading slashes. -/
def withoutSlashes (s : Text) : Text := Text.trimStart (· == '/') s

/-- A path without the mount path of the site, if it begins with it. -/
def unmount (root path : Text) : Text :=
  if root = ['/'] then path else (Text.after? (withoutSlashes root) path).getD path

/-- The target of a path below the mount path. -/
def ofPath (path : Text) : Target :=
  if path = entryScript || path = entryScript ++ ['/'] then entry
  else match Text.after? entryScript path with
    | some (c :: rest) =>
      if c = '?' || c = '/' then .path (markedEntry ++ c :: rest) else .path path
    | _ => .path path

/-- The target of a request to a site mounted at `root`. -/
def ofUri (root uri : Text) : Target := ofPath (unmount root (withoutSlashes uri))

end Target

end Detour
