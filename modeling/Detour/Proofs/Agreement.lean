import Detour.Store.MissLog
import Detour.Store.Staging

/-!
# Disks that agree but for one file

Processes that store a file each go by way of a second file of their own. Two disks agree but for a file if
they differ in nothing but that file and in what such processes have left of their second files.

* `Disk.IsClear`: no folder stands in the way of storing a file.
* `Disk.stage_cases_of_clear`: then storing succeeds or fails whatever the number of the process is, and
  `Disk.agrees_stage` says that no other file is touched.
* `Disk.Agrees.at?_eq_folder_iff`: disks that agree have the same folders, so that the same files can be
  written.
-/

namespace Detour

namespace Path

/-- The folder of the second files of a path, which all processes share. -/
def stagingFolder (p : Path) : Path :=
  if p.hasName then p.dropLast else p.filter fun name => name ≠ ['.']

/-- A second file stands in that folder. -/
theorem dropLast_staging (process : Nat) (p : Path) : (p.staging process).dropLast = p.stagingFolder := by
  unfold staging stagingFolder
  split <;> exact List.dropLast_concat

/-- The path of a second file is not empty. -/
theorem staging_ne_nil (process : Nat) (p : Path) : p.staging process ≠ [] := by
  obtain ⟨name, hlast, -⟩ := getLast?_staging process p
  rintro h
  rw [h] at hlast
  cases hlast

end Path

namespace Disk

variable {d e f : Disk} {p q : Path} {processes : List Nat} {process : Nat} {content : Bytes}

/-- Whether a file can be stored by way of a second one, if no folder stands in the place of that. -/
def isStorable (d : Disk) (p : Path) : Bool :=
  !p.isEmpty && d.at? p != some .folder &&
    (p.stagingFolder.isEmpty || d.at? p.stagingFolder == some .folder)

/-- Whether no folder stands in the place of a file, nor in those of the second files of some processes. -/
structure IsClear (d : Disk) (p : Path) (processes : List Nat) : Prop where
  /-- the file itself -/
  place : d.at? p ≠ some .folder
  /-- the second files -/
  seconds : ∀ n ∈ processes, d.at? (p.staging n) ≠ some .folder

/-- Where there is no folder, no other paths begin. -/
theorem isOrigin_of_ne_folder (h : d.at? p ≠ some .folder) : p.isOrigin = false := by
  rcases horigin : p.isOrigin with _ | _
  · rfl
  · exact absurd (by simp [at?, horigin]) h

/-- A second file never stands where paths begin. -/
theorem isOrigin_staging (process : Nat) (p : Path) : (p.staging process).isOrigin = false :=
  Path.isOrigin_of_hasName (Path.hasName_staging process p)

/-- A second file can be made exactly if its folder exists. -/
theorem isWritable_staging_eq (h : d.at? (p.staging process) ≠ some .folder) :
    d.isWritable (p.staging process) =
      (p.stagingFolder.isEmpty || d.at? p.stagingFolder == some .folder) := by
  have hplace : (d.at? (p.staging process) != some .folder) = true := by simpa using h
  have hempty : (p.staging process).isEmpty = false := by simpa using Path.staging_ne_nil process p
  rw [isWritable, hasFolder, Path.dropLast_staging, hempty, hplace]
  simp

/-- **Storing a file** where no folder stands in the way: it takes its place, or it cannot be stored, and then
at most the second file is left. -/
theorem stage_cases_of_clear (h : d.IsClear p processes) (hprocess : process ∈ processes)
    (content : Bytes) :
    (d.isStorable p ∧ d.stage process none content p =
      (.ok (), (d.remove (p.staging process)).put p (.file content))) ∨
    (d.isStorable p = false ∧ ∃ error rest,
      (rest = d ∨ rest = d.put (p.staging process) (.file content)) ∧
      d.stage process none content p = (.error error, rest)) := by
  have hplace : (d.at? p != some .folder) = true := by simpa using h.place
  rw [isStorable, ← isWritable_staging_eq (h.seconds process hprocess), hplace, Bool.and_true]
  unfold stage
  dsimp only
  rcases hwritable : d.isWritable (p.staging process) with _ | _
  · exact .inr ⟨Bool.and_false _, _, _, .inl rfl, rfl⟩
  · rcases hempty : p.isEmpty with _ | _
    · exact .inl ⟨rfl, by simp [h.place]⟩
    · exact .inr ⟨rfl, .io, _, .inr rfl, by simp⟩

/-- Whether two disks differ in nothing but a file and the second files of some processes, with no folder in
the place of any of them. -/
structure Agrees (p : Path) (processes : List Nat) (d e : Disk) : Prop where
  /-- no folder on the one disk -/
  left : d.IsClear p processes
  /-- no folder on the other disk -/
  right : e.IsClear p processes
  /-- everything else is the same -/
  elsewhere : ∀ q, q ≠ p → (∀ n ∈ processes, q ≠ p.staging n) → d.at? q = e.at? q

namespace Agrees

/-- A disk agrees with itself. -/
theorem refl (h : d.IsClear p processes) : d.Agrees p processes d := ⟨h, h, fun _ _ _ => rfl⟩

/-- Disks agree with each other. -/
theorem symm (h : d.Agrees p processes e) : e.Agrees p processes d :=
  ⟨h.right, h.left, fun q hq hseconds => (h.elsewhere q hq hseconds).symm⟩

/-- Disks that agree with a third one agree. -/
theorem trans (h : d.Agrees p processes e) (hother : e.Agrees p processes f) : d.Agrees p processes f :=
  ⟨h.left, hother.right,
    fun q hq hseconds => (h.elsewhere q hq hseconds).trans (hother.elsewhere q hq hseconds)⟩

/-- **Disks that agree have the same folders.** -/
theorem at?_eq_folder_iff (h : d.Agrees p processes e) (q : Path) :
    d.at? q = some .folder ↔ e.at? q = some .folder := by
  by_cases hplace : q = p
  · subst hplace
    exact iff_of_false h.left.place h.right.place
  by_cases hseconds : ∃ n ∈ processes, q = p.staging n
  · obtain ⟨n, hn, rfl⟩ := hseconds
    exact iff_of_false (h.left.seconds n hn) (h.right.seconds n hn)
  · rw [h.elsewhere q hplace fun n hn heq => hseconds ⟨n, hn, heq⟩]

/-- A folder is found on both or on neither. -/
theorem isFolder_eq (h : d.Agrees p processes e) (q : Path) :
    (d.at? q == some .folder) = (e.at? q == some .folder) := by
  rw [Bool.eq_iff_iff, beq_iff_eq, beq_iff_eq]
  exact h.at?_eq_folder_iff q

/-- The same files can be written. -/
theorem isWritable_eq (h : d.Agrees p processes e) (q : Path) : d.isWritable q = e.isWritable q := by
  have hplace : (d.at? q != some .folder) = (e.at? q != some .folder) :=
    congrArg (!·) (h.isFolder_eq q)
  rw [isWritable, isWritable, hasFolder, hasFolder, hplace, h.isFolder_eq]

/-- The file can be stored on both or on neither. -/
theorem isStorable_eq (h : d.Agrees p processes e) : d.isStorable p = e.isStorable p := by
  have hplace : (d.at? p != some .folder) = (e.at? p != some .folder) :=
    congrArg (!·) (h.isFolder_eq p)
  rw [isStorable, isStorable, hplace, h.isFolder_eq]

/-- Disks still agree when another file is written to both. -/
theorem put (h : d.Agrees p processes e) (hplace : q ≠ p) (hseconds : ∀ n ∈ processes, q ≠ p.staging n)
    (horigin : q.isOrigin = false) (content : Bytes) :
    (d.put q (.file content)).Agrees p processes (e.put q (.file content)) := by
  have hclear {d : Disk} (h : d.IsClear p processes) : (d.put q (.file content)).IsClear p processes := by
    refine ⟨?_, fun n hn => ?_⟩
    · rw [at?_put_ne hplace.symm]
      exact h.place
    · rw [at?_put_ne (hseconds n hn).symm]
      exact h.seconds n hn
  refine ⟨hclear h.left, hclear h.right, fun r hr hother => ?_⟩
  by_cases heq : r = q
  · rw [heq, at?_put horigin, at?_put horigin]
  · rw [at?_put_ne heq, at?_put_ne heq]
    exact h.elsewhere r hr hother

end Agrees

/-- Writing the file itself touches no other. -/
theorem agrees_put (h : d.IsClear p processes) (horigin : p.isOrigin = false) (content : Bytes) :
    d.Agrees p processes (d.put p (.file content)) := by
  refine ⟨h, ⟨?_, fun n hn => ?_⟩, fun q hq _ => (at?_put_ne hq).symm⟩
  · rw [at?_put horigin]
    simp
  · rw [at?_put_ne (Path.staging_ne n p)]
    exact h.seconds n hn

/-- Writing another file does not make a file storable. -/
theorem isStorable_of_put (hq : d.isWritable q) (hplace : q ≠ p)
    (h : (d.put q (.file content)).isStorable p) : d.isStorable p := by
  rw [isStorable, at?_put_ne hplace.symm] at h
  rw [isStorable]
  by_cases hfolder : p.stagingFolder = q
  · -- a file is no folder
    rw [hfolder, at?_put (isOrigin_of_isWritable hq)] at h
    rw [hfolder]
    simp only [Bool.and_eq_true, Bool.or_eq_true] at h ⊢
    exact ⟨h.1, h.2.imp_right fun hfile => absurd hfile (by simp)⟩
  · rwa [at?_put_ne hfolder] at h

/-- **Storing a file** touches no file but that and the second file of the process. -/
theorem agrees_stage (h : d.IsClear p processes) (hprocess : process ∈ processes) (content : Bytes) :
    d.Agrees p processes (d.stage process none content p).2 := by
  have horigin := isOrigin_of_ne_folder h.place
  have hsecond := isOrigin_staging process p
  rcases stage_cases_of_clear h hprocess content with ⟨-, hstage⟩ | ⟨-, error, rest, hrest, hstage⟩
  · rw [hstage]
    refine ⟨h, ⟨?_, fun n hn => ?_⟩, fun q hq hseconds => ?_⟩
    · rw [at?_put horigin]
      simp
    · rw [at?_put_ne (Path.staging_ne n p)]
      by_cases heq : p.staging n = p.staging process
      · rw [heq, at?_remove hsecond]
        simp
      · rw [at?_remove_ne heq]
        exact h.seconds n hn
    · rw [at?_put_ne hq, at?_remove_ne (hseconds process hprocess)]
  · rw [hstage]
    rcases hrest with rfl | rfl
    · exact .refl h
    · refine ⟨h, ⟨?_, fun n hn => ?_⟩, fun q hq hseconds => ?_⟩
      · rw [at?_put_ne (Path.staging_ne process p).symm]
        exact h.place
      · by_cases heq : p.staging n = p.staging process
        · rw [heq, at?_put hsecond]
          simp
        · rw [at?_put_ne heq]
          exact h.seconds n hn
      · exact (at?_put_ne (hseconds process hprocess)).symm

end Disk

end Detour
