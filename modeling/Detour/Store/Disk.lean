import Detour.Text.Utf8

/-!
# Files

A disk holds files and folders under paths. Reading, replacing and appending to a file are functions
on the disk, so that what a run leaves behind can be stated. A file can be written if its folder exists
and no folder stands in its place; when it cannot, the disk stays as it is.
-/

namespace Detour

/-- What stands at a path. -/
inductive Entry where
  /-- a file with its content -/
  | file (content : Bytes)
  /-- a folder -/
  | folder
deriving Repr, DecidableEq

/-- A path as the names of the folders on the way and a last name; an absolute path has an empty first
name, and a point alone is the folder that other paths begin in. -/
abbrev Path := List Text

namespace Path

/-- The path that a text denotes; empty if the text is. -/
def ofText (s : Text) : Path :=
  let names := (Text.split '/' s).filter fun name => !(name.isEmpty || name = ['.'])
  if s.head? == some '/' then [] :: names
  else if names.isEmpty && !s.isEmpty then [['.']]
  else names

/-- Whether a path is one that others begin in. -/
def isOrigin (p : Path) : Bool := p = [[]] || p = [['.']]

end Path

/-- Files and folders under their paths. -/
structure Disk where
  /-- the entries, each path once -/
  entries : List (Path × Entry)
deriving Repr, DecidableEq

namespace Disk

/-- What stands at a path; where paths begin there is a folder. -/
def at? (d : Disk) (p : Path) : Option Entry :=
  if p.isOrigin then some .folder else d.entries.lookup p

/-- A disk with an entry put at a path. -/
def put (d : Disk) (p : Path) (e : Entry) : Disk :=
  ⟨(p, e) :: d.entries.filter fun x => x.1 ≠ p⟩

/-- A disk without what stands at a path. -/
def remove (d : Disk) (p : Path) : Disk := ⟨d.entries.filter fun x => x.1 ≠ p⟩

/-- Whether the folder of a path exists. -/
def hasFolder (d : Disk) (p : Path) : Bool :=
  p.dropLast.isEmpty || d.at? p.dropLast == some .folder

/-- Whether a file can be written at a path. -/
def isWritable (d : Disk) (p : Path) : Bool :=
  !p.isEmpty && d.hasFolder p && d.at? p != some .folder

/-- The disk with a file replaced or made, if that is possible. -/
def write? (d : Disk) (p : Path) (content : Bytes) : Option Disk :=
  if d.isWritable p then some (d.put p (.file content)) else none

/-- The content of the file at a path; empty if there is none. -/
def content (d : Disk) (p : Path) : Bytes :=
  match d.at? p with
  | some (.file content) => content
  | _ => []

/-- The disk with something appended to a file, which is made if there is none. -/
def append? (d : Disk) (p : Path) (more : Bytes) : Option Disk :=
  d.write? p (d.content p ++ more)

/-- The text of an entry; `none` for a folder and for a file that is not well formed. -/
def text? : Entry → Option Text
  | .file content => Utf8.decode? content
  | .folder => none

/-- What was put at a path stands there. -/
theorem at?_put {d : Disk} {p : Path} {e : Entry} (h : p.isOrigin = false) :
    (d.put p e).at? p = some e := by
  simp [at?, put, h]

/-- What stands elsewhere is not touched when something is removed. -/
theorem at?_remove_ne {d : Disk} {p q : Path} (h : q ≠ p) : (d.remove p).at? q = d.at? q := by
  have key : ∀ l : List (Path × Entry), (l.filter fun x => x.1 ≠ p).lookup q = l.lookup q := by
    intro l
    induction l with
    | nil => rfl
    | cons x l ih =>
      obtain ⟨k, v⟩ := x
      by_cases hk : k = p
      · subst hk
        simp [List.lookup_cons, beq_false_of_ne h] at ih ⊢
        exact ih
      · by_cases hq : q = k
        · subst hq; simp [hk]
        · simp [hk, List.lookup_cons, beq_false_of_ne hq] at ih ⊢
          exact ih
  rw [at?, at?, remove, key]

/-- What stands elsewhere is not touched when something is put at a path. -/
theorem at?_put_ne {d : Disk} {p q : Path} {e : Entry} (h : q ≠ p) :
    (d.put p e).at? q = d.at? q := by
  have hremove : (d.put p e).at? q = (d.remove p).at? q := by
    simp [at?, put, remove, List.lookup_cons, beq_false_of_ne h]
  rw [hremove, at?_remove_ne h]

/-- Nothing is left where something was removed. -/
theorem at?_remove {d : Disk} {p : Path} (h : p.isOrigin = false) : (d.remove p).at? p = none := by
  have hnone : (d.entries.filter fun x => x.1 ≠ p).lookup p = none := by
    rw [List.lookup_eq_none_iff]
    intro x hx
    have hne : x.1 ≠ p := by simpa using (List.mem_filter.1 hx).2
    simpa using Ne.symm hne
  rw [at?, h, remove, hnone]
  rfl

/-- No file is written where paths begin. -/
theorem isOrigin_of_isWritable {d : Disk} {p : Path} (h : d.isWritable p) : p.isOrigin = false := by
  rcases horigin : p.isOrigin with _ | _
  · rfl
  · simp [isWritable, at?, horigin] at h

/-- Writing a file succeeds and puts it there, or it cannot be written. -/
theorem write?_cases (d : Disk) (p : Path) (content : Bytes) :
    (d.isWritable p ∧ d.write? p content = some (d.put p (.file content))) ∨
      (d.isWritable p = false ∧ d.write? p content = none) := by
  rw [write?]
  rcases d.isWritable p with _ | _
  · exact .inr ⟨rfl, rfl⟩
  · exact .inl ⟨rfl, rfl⟩

/-- A file can be written again where one was put. -/
theorem isWritable_put {d : Disk} {p : Path} {content : Bytes} (h : d.isWritable p) :
    (d.put p (.file content)).isWritable p := by
  have horigin := isOrigin_of_isWritable h
  have hparent : p.dropLast ≠ p := by
    intro heq
    have hlength := congrArg List.length heq
    rw [List.length_dropLast] at hlength
    cases p with
    | nil => simp [isWritable] at h
    | cons name names =>
      rw [List.length_cons] at hlength
      omega
  rw [isWritable, hasFolder, at?_put horigin, at?_put_ne hparent]
  simp only [isWritable, hasFolder, Bool.and_eq_true] at h
  rw [h.1.1, h.1.2]
  rfl

/-- What was put at a path is the content of the file there. -/
theorem content_put {d : Disk} {p : Path} {content : Bytes} (h : p.isOrigin = false) :
    (d.put p (.file content)).content p = content := by
  rw [Disk.content, at?_put h]

end Disk

end Detour
