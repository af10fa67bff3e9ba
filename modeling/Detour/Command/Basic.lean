import Detour.Request.Basic

/-!
# Commands

What the program can be told to do on its command line, and what stands there.
-/

namespace Detour

/-- What the program is told to do. -/
inductive Command where
  /-- to resolve a request, or only to tell how it would be resolved -/
  | resolve (request : Request) (diagnose : Bool)
  /-- to show the stages of a source pattern -/
  | compile (source : Text)
  /-- to show the hit ledger -/
  | hits
deriving Repr, DecidableEq

/-- A command line that makes sense. -/
structure Invocation where
  /-- the path of the configuration -/
  config : Text
  /-- what to do -/
  command : Command
deriving Repr, DecidableEq

/-- Why a command line tells nothing to do. -/
inductive Stop where
  /-- it asks for help -/
  | help
  /-- it makes no sense -/
  | misuse
deriving Repr, DecidableEq

end Detour
