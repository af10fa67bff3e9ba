import Detour.Instant.Reading
import Detour.Rule

/-!
# Activation

When a rule is active. A bound that cannot be read counts as absent; without bounds a rule is always
active, and its redirect is permanent. Every other state has a window at each instant, with an end one
hour ahead if only the beginning is stored, and the instant itself as beginning if only the end is
stored. In the last hour of all there is no end one hour ahead, and so no answer (`Activation.overruns`).
-/

namespace Detour

/-- The state of activation that the bounds of a rule describe. -/
inductive Activation where
  /-- always active -/
  | unbounded
  /-- active from an instant on -/
  | delayed (start : Instant)
  /-- active up to an instant -/
  | bounded (stop : Instant)
  /-- active between two instants -/
  | windowed (start stop : Instant)
deriving Repr, DecidableEq

/-- The window of an activation at an instant. -/
structure Window where
  /-- the first instant -/
  start : Instant
  /-- the last instant -/
  stop : Instant
  /-- whether the end is not stored but made up -/
  openEnded : Bool
deriving Repr, DecidableEq

/-- Whether an instant lies in a window, both ends included. -/
def Window.contains (w : Window) (now : Instant) : Bool := w.start.le now && now.le w.stop

namespace Activation

/-- The activation with given bounds. -/
def ofBounds : Option Instant → Option Instant → Activation
  | none, none => unbounded
  | some start, none => delayed start
  | none, some stop => bounded stop
  | some start, some stop => windowed start stop

/-- The activation of stored bounds. -/
def ofStored (start stop : Option Text) : Activation :=
  ofBounds (start.bind Instant.readStored?) (stop.bind Instant.readStored?)

/-- The activation of a rule. -/
def ofRule (r : Rule) : Activation := ofStored r.start r.stop

/-- The window at an instant, if there are bounds. There is no answer if the end would have to be made up and
there is no instant one hour ahead. -/
def window? (a : Activation) (now : Instant) : Option (Option Window) :=
  match a with
  | unbounded => some none
  | delayed start => now.plusHour?.map fun stop => some ⟨start, stop, true⟩
  | bounded stop => some (some ⟨now, stop, false⟩)
  | windowed start stop => some (some ⟨start, stop, false⟩)

/-- The window at an instant, if there is one. -/
def window (a : Activation) (now : Instant) : Option Window := (a.window? now).join

/-- Whether there is no answer at an instant. -/
def overruns (a : Activation) (now : Instant) : Bool := (a.window? now).isNone

/-- Whether an activation has begun and not ended at an instant, as far as that can be told. -/
def isActive (a : Activation) (now : Instant) : Bool :=
  (a.window? now).any fun window => window.all fun w => w.contains now

/-- The window at an instant that lies outside it, if the window can be told. -/
def missedWindow? (a : Activation) (now : Instant) : Option (Option Window) :=
  (a.window? now).map fun window => window.filter fun w => !w.contains now

/-- It cannot be told whether a window is missed where there is none for want of an hour. -/
theorem missedWindow?_eq_none_iff {a : Activation} {now : Instant} :
    a.missedWindow? now = none ↔ a.overruns now := by
  rw [missedWindow?, overruns, Option.map_eq_none_iff, Option.isNone_iff_eq_none]

/-- No window is missed exactly where an activation is active. -/
theorem missedWindow?_eq_some_none_iff {a : Activation} {now : Instant} :
    a.missedWindow? now = some none ↔ a.isActive now := by
  rcases h : a.window? now with _ | _ | w <;> simp [missedWindow?, isActive, h]

/-- Whether redirects are permanent. -/
def isPermanent : Activation → Bool
  | unbounded => true
  | _ => false

/-- There is no answer only where there is a beginning but no end, and no instant one hour ahead. -/
theorem overruns_ofBounds {start stop : Option Instant} {now : Instant} :
    (ofBounds start stop).overruns now ↔ start ≠ none ∧ stop = none ∧ now.plusHour? = none := by
  cases start <;> cases stop <;> simp [ofBounds, overruns, window?]

/-- The ends that are made up never decide: an activation is active from its beginning, if it has one,
to its end, if it has one, wherever there is an answer at all. -/
theorem isActive_ofBounds {start stop : Option Instant} {now : Instant} :
    (ofBounds start stop).isActive now = true ↔ (ofBounds start stop).overruns now = false ∧
      (∀ b, start = some b → b.le now = true) ∧ (∀ b, stop = some b → now.le b = true) := by
  cases start with
  | none =>
    cases stop <;> simp [ofBounds, isActive, overruns, window?, Window.contains, Instant.le_refl]
  | some start =>
    cases stop with
    | some stop => simp [ofBounds, isActive, overruns, window?, Window.contains]
    | none =>
      rcases hlater : now.plusHour? with _ | later
      · simp [ofBounds, isActive, overruns, window?, hlater]
      · simp [ofBounds, isActive, overruns, window?, Window.contains, hlater,
          Instant.le_of_plusHour? hlater]

/-- Redirects are permanent exactly if there are no bounds. -/
theorem isPermanent_ofBounds {start stop : Option Instant} :
    (ofBounds start stop).isPermanent = true ↔ start = none ∧ stop = none := by
  cases start <;> cases stop <;> simp [ofBounds, isPermanent]

end Activation

end Detour
