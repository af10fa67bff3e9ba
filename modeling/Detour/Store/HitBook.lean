import Detour.Store.Ledger

/-!
# Hit books

A ledger together with the path that it is stored at, if it is stored at all. A hit that is counted stays
in the book whether it is stored or not, so that the next time it is stored along with the others.
-/

namespace Detour

/-- A ledger and where it is stored. -/
structure HitBook where
  /-- the hits of all rules -/
  ledger : Ledger
  /-- the path of its file; `none` if it has no file -/
  path : Option Path
deriving Repr, DecidableEq

namespace HitBook

/-- A book without hits. -/
def empty (path : Option Path) : HitBook := ⟨Ledger.empty, path⟩

/-- The book that is stored at a path. -/
def load (d : Disk) (p : Path) : Except StoreError HitBook :=
  match Ledger.load d p with
  | .error e => .error e
  | .ok l => .ok ⟨l, some p⟩

/-- The book that is stored at a path, or one without hits if it cannot be read. -/
def loadOrEmpty (d : Disk) (p : Path) : HitBook :=
  match load d p with
  | .error _ => empty (some p)
  | .ok b => b

/-- A book after one more hit of a rule. -/
def count (b : HitBook) (id : RuleId) (now : Instant) : HitBook := ⟨b.ledger.record id now, b.path⟩

end HitBook

end Detour
